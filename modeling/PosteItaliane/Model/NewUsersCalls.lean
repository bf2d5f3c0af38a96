import PosteItaliane.Model.NewUsers
import Mathlib.Algebra.Group.Int.Defs

/-!
# One call of `check_new_users_queue`

The function as a whole, on the queue it finds and with what its calls return: what it adds to
the two counters, how many users it starts and what it tries to send. A `fork` that fails ends
the director. The table of children it writes to is in a module of its own.
-/

namespace PosteItaliane

open Framework

/-- The outcome of the non-blocking receive, how many calls of `fork` succeed until one fails, and
whether `msgsnd` accepts the answer. After a failure the sender is what happens to be in the
buffer. -/
inductive NewUsersOutcome where
  | message (m : AddUsersMessage) (r : NewUsersRequest) (forks : ℕ) (accepted : Bool)
  | noMessage
  | fails (senderPid : ℤ) (accepted : Bool)
  deriving DecidableEq

/-- The queue when the function is called, and what happens in it. -/
structure NewUsersCall where
  queue : List AddUsersMessage
  outcome : NewUsersOutcome
  deriving DecidableEq

/-- `g_config.num_users` and `*idx`, and whether the director has exited. -/
structure ChildCount where
  numUsers : ℤ
  idx : ℤ
  exited : Bool
  deriving DecidableEq

/-- The iterations of `children[(*idx)++] = start_process(UTENTE);` that are left, with the
processes started so far. `start_process` exits when its `fork` fails. -/
def startUsers : (left forks : ℕ) → ℕ × ChildCount → ℕ × ChildCount
  | 0, _, s => s
  | _ + 1, 0, (started, c) => (started, { c with exited := true })
  | left + 1, forks + 1, (started, c) =>
    startUsers left forks (started + 1, { c with idx := c.idx + 1 })

/-- An `mq_send` with the type, the status and whether a message was sent. -/
structure Answer where
  mtype : ℤ
  status : ℤ
  sent : Bool
  deriving DecidableEq

/-- `msgsnd` rejects a type that is not positive. -/
def mqSend (mtype status : ℤ) (accepted : Bool) : Answer :=
  ⟨mtype, status, accepted && decide (0 < mtype)⟩

def Answer.enqueue (a : Answer) (queue : List AddUsersMessage) : List AddUsersMessage :=
  if a.sent then queue ++ [⟨a.mtype.toNat, .done ⟨a.status⟩⟩] else queue

structure NewUsersResult where
  count : ChildCount
  queue : List AddUsersMessage
  started : ℕ
  answers : List Answer

/-- `check_new_users_queue`. -/
def checkNewUsersQueue (c : ChildCount) (call : NewUsersCall) : NewUsersResult :=
  match call.outcome with
  | .message _ r forks accepted =>
    let queue := afterAddUsers call.queue msgTypeAddUsersRequest
    let answer := mqSend r.senderPid 1 accepted
    -- the loop starts nobody if the number is negative
    let (started, count) := startUsers r.nNewUsers.toNat forks
      (0, { c with numUsers := c.numUsers + r.nNewUsers })
    if count.exited then ⟨count, queue, started, []⟩
    else ⟨count, answer.enqueue queue, started, [answer]⟩
  | .noMessage => ⟨c, call.queue, 0, []⟩
  | .fails senderPid accepted =>
    let answer := mqSend senderPid 0 accepted
    ⟨c, answer.enqueue call.queue, 0, [answer]⟩

/-- The outcome is one that the receive can have on the queue. -/
def NewUsersCall.Valid (call : NewUsersCall) : Prop :=
  match call.outcome with
  | .message m r _ _ => firstAddUsers call.queue msgTypeAddUsersRequest = some m ∧
      m.body.size ≤ 8 ∧ m.body.ReadsAsRequest r
  | .noMessage => firstAddUsers call.queue msgTypeAddUsersRequest = none
  | .fails _ _ => True

/-- The calls of the director, one after the other, each on the queue as it is by then. -/
def newUsersCalls : GuardedSystem ChildCount NewUsersCall where
  Enabled c call := c.exited = false ∧ call.Valid
  next c call := (checkNewUsersQueue c call).count

/-- The request that a call takes out of the queue. -/
def NewUsersCall.request (call : NewUsersCall) : Option NewUsersRequest :=
  match call.outcome with
  | .message m r _ _ => if m.body = .request r then some r else none
  | _ => none

end PosteItaliane
