import PosteItaliane.Framework.GuardedSystem
import Mathlib.Logic.Function.Basic

/-!
# The director's `main` and what it opens

`main` from its first call to its end, as far as its calls open something, start a child or
can end it. A call that succeeds or fails is an action; where `main` or a helper looks at
the failure it ends there. The loop comes back to `nanosleep` any number of times, and every
request in it starts users. The clean-up is at the end of the normal path: it kills the children
in the table, which `main` does not find any more once `realloc` has moved it.
-/

namespace PosteItaliane

open Framework

/-- The queues and segments, which stay in the system until they are removed. -/
inductive Resource where
  | ticketQueue
  | usersQueue
  | statsSegment
  | stationsSegment
  deriving DecidableEq

inductive MainCall where
  | ftok
  | mqOpen (queue : Resource)
  | shmOpen (segment : Resource)
  | mmap (segment : Resource)
  | openConfig
  | fork
  deriving DecidableEq

/-- A failure ends the process. Nobody looks at the queue of the tickets, and nobody at
`shm_open`, after which `mmap` fails. -/
def MainCall.checked : MainCall → Bool
  | .mqOpen .ticketQueue => false
  | .shmOpen _ => false
  | _ => true

/-- What a successful call opens, and creates unless it exists. -/
def MainCall.opens : MainCall → Option Resource
  | .mqOpen r => some r
  | .shmOpen r => some r
  | _ => none

/-- `init_shared_memory`. -/
def initSharedMemory (segment : Resource) : List MainCall := [.shmOpen segment, .mmap segment]

/-- The calls before the loop. With no path, or an empty one, `load_config` opens nothing and
succeeds. -/
def startupCalls (numOperators numUsers : ℕ) : List MainCall :=
  [.ftok, .mqOpen .ticketQueue, .ftok, .mqOpen .usersQueue] ++
    (initSharedMemory .statsSegment ++ (initSharedMemory .stationsSegment ++
      (.openConfig :: List.replicate (1 + numOperators + numUsers) .fork)))

/-- The calls to come, of which there are none at the head of the loop, or the part of the
clean-up that is left. -/
inductive MainStage where
  | calls (todo : List MainCall)
  | terminating
  | cleanUp (rest : List Resource)
  | ended
  deriving DecidableEq

/-- `children` is the number of the ones started and not yet killed and waited for. The ones whose
process ids are in the block that `main` has the handle of are `listed`, unless `realloc` has
`moved` the table: that block is then not allocated any more, and the process ids of new children
go into the other one. -/
structure MainState where
  stage : MainStage
  opened : Resource → Bool
  children : ℕ
  listed : ℕ
  moved : Bool
  removed : Resource → Bool

/-- A request for `n` users comes with whether `realloc` moves the table. -/
inductive MainAct where
  | succeeds (c : MainCall)
  | fails (c : MainCall)
  | tick
  | tickFails
  | request (n : ℕ) (moves : Bool)
  | leave
  | terminate
  | remove (r : Resource)
  | return
  deriving DecidableEq

/-- `mq_close` for both queues and `cleanup_shared_memory` for both segments. -/
def cleanUpOrder : List Resource := [.usersQueue, .ticketQueue, .statsSegment, .stationsSegment]

def MainStage.nextCall : MainStage → Option MainCall
  | .calls (c :: _) => some c
  | _ => none

def MainStage.afterCall : MainStage → MainStage
  | .calls (_ :: todo) => .calls todo
  | s => s

def MainStage.nextRemoval : MainStage → Option Resource
  | .cleanUp (r :: _) => some r
  | _ => none

def MainStage.afterRemoval : MainStage → MainStage
  | .cleanUp (_ :: rest) => .cleanUp rest
  | s => s

def MainState.init (numOperators numUsers : ℕ) : MainState where
  stage := .calls (startupCalls numOperators numUsers)
  opened := fun _ => false
  children := 0
  listed := 0
  moved := false
  removed := fun _ => false

def MainState.Enabled (s : MainState) : MainAct → Prop
  | .succeeds (.mmap r) => s.stage.nextCall = some (.mmap r) ∧ s.opened r = true
  | .succeeds c => s.stage.nextCall = some c
  | .fails c => s.stage.nextCall = some c
  | .tick => s.stage = .calls []
  | .tickFails => s.stage = .calls []
  | .request _ _ => s.stage = .calls []
  | .leave => s.stage = .calls []
  | .terminate => s.stage = .terminating
  | .remove r => s.stage.nextRemoval = some r
  | .return => s.stage = .cleanUp []

instance decidableMainState (s : MainState) (a : MainAct) : Decidable (s.Enabled a) := by
  rcases a with c | _ | _ | _ | _ | _ | _ | _ | _
  case succeeds => rcases c with _ | _ <;> (dsimp only [MainState.Enabled]; infer_instance)
  all_goals (dsimp only [MainState.Enabled]; infer_instance)

def MainState.next (s : MainState) : MainAct → MainState
  | .succeeds c =>
    { s with
      stage := s.stage.afterCall
      opened := match c.opens with
        | some r => Function.update s.opened r true
        | none => s.opened
      children := if c = .fork then s.children + 1 else s.children
      listed := if c = .fork ∧ s.moved = false then s.listed + 1 else s.listed }
  | .fails c => { s with stage := if c.checked then .ended else s.stage.afterCall }
  | .tick => s
  | .tickFails => { s with stage := .ended }
  | .request n moves =>
    { s with
      stage := .calls (List.replicate n .fork)
      listed := if moves then 0 else s.listed
      moved := s.moved || moves }
  | .leave => { s with stage := .terminating }
  -- the children whose process ids are not found are neither killed nor waited for
  | .terminate =>
    { s with stage := .cleanUp cleanUpOrder, children := s.children - s.listed, listed := 0 }
  | .remove r =>
    { s with stage := s.stage.afterRemoval, removed := Function.update s.removed r true }
  | .return => { s with stage := .ended }

def directorMain : GuardedSystem MainState MainAct where
  Enabled := MainState.Enabled
  next := MainState.next

instance decidableDirectorMain (s : MainState) (a : MainAct) :
    Decidable (directorMain.Enabled s a) :=
  inferInstanceAs (Decidable (s.Enabled a))

end PosteItaliane
