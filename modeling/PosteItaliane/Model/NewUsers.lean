import PosteItaliane.Framework.GuardedSystem
import PosteItaliane.Framework.Mailbox
import Mathlib.Logic.Function.Basic

/-!
# The add-users queue

`new_users.c` and the director's `check_new_users_queue`, as far as the queue between them
goes: the clients that ask for more users and the director that looks at the queue once in
each of its iterations. What a request changes in the simulation is in the director's model.
-/

namespace PosteItaliane

open Framework

/-- `MSG_TYPE_ADD_USERS_REQUEST`, the type the director looks for. -/
def msgTypeAddUsersRequest : ℕ := 10

structure NewUsersRequest where
  senderPid : ℕ
  nNewUsers : ℤ
  deriving DecidableEq

structure NewUsersDone where
  status : ℤ
  deriving DecidableEq

inductive AddUsersBody where
  | request (r : NewUsersRequest)
  | done (d : NewUsersDone)
  deriving DecidableEq

structure AddUsersMessage where
  mtype : ℕ
  body : AddUsersBody
  deriving DecidableEq

/-- `sizeof` of the structure that was sent. -/
def AddUsersBody.size : AddUsersBody → ℕ
  | .request _ => 8
  | .done _ => 4

/-- The first 32-bit word of the message. -/
def AddUsersBody.word : AddUsersBody → ℤ
  | .request r => r.senderPid
  | .done d => d.status

/-- What the director finds in its buffer. After the shorter message the number of users is
whatever the buffer held before. -/
def AddUsersBody.ReadsAsRequest (r : NewUsersRequest) : AddUsersBody → Prop
  | .request r' => r' = r
  | .done d => d.status = r.senderPid

instance decidableReadsAsRequest (r : NewUsersRequest) :
    ∀ b : AddUsersBody, Decidable (b.ReadsAsRequest r)
  | .request r' => inferInstanceAs (Decidable (r' = r))
  | .done d => inferInstanceAs (Decidable (d.status = r.senderPid))

/-- The message a receive of the given type would take. -/
def firstAddUsers (queue : List AddUsersMessage) (mtype : ℕ) : Option AddUsersMessage :=
  queue.find? fun m => m.mtype = mtype

/-- The queue after that receive. -/
def afterAddUsers (queue : List AddUsersMessage) (mtype : ℕ) : List AddUsersMessage :=
  Mailbox.rest (fun m => m.mtype = mtype) queue

/-- The clients, their process ids and the value of `--n-new-users`, if it is given. -/
structure Clients (N : Type) where
  pid : N → ℕ
  arg : N → Option ℤ
  pid_pos : ∀ c, 0 < pid c
  pid_injective : Function.Injective pid

namespace NewUsers

/-- The number a client asks for. -/
def numNewUsers : Option ℤ → ℤ
  | some n => if n < 1 then 1 else n
  | none => 1

inductive Phase where
  | boot
  | awaitReply
  | exited (success : Bool)
  deriving DecidableEq

/-- After `receiveFails` the client looks at a status that nobody has written. -/
inductive Act where
  | send
  | sendFails
  | receive (m : AddUsersMessage)
  | interrupted
  | receiveFails (success : Bool)
  deriving DecidableEq

variable {N : Type} (clients : Clients N) (c : N)

def Enabled (phase : Phase) (queue : List AddUsersMessage) : Act → Prop
  | .send => phase = .boot
  | .sendFails => phase = .boot
  | .receive m => phase = .awaitReply ∧ firstAddUsers queue (clients.pid c) = some m ∧
      m.body.size ≤ 4
  | .interrupted => phase = .awaitReply
  | .receiveFails _ => phase = .awaitReply

instance decidableEnabled (phase : Phase) (queue : List AddUsersMessage) (a : Act) :
    Decidable (Enabled clients c phase queue a) := by
  rcases a with _ | _ <;> (dsimp only [Enabled]; infer_instance)

def next (queue : List AddUsersMessage) : Act → Phase × List AddUsersMessage
  | .send => (.awaitReply, queue ++ [⟨msgTypeAddUsersRequest,
      .request ⟨clients.pid c, numNewUsers (clients.arg c)⟩⟩])
  | .sendFails => (.exited false, queue)
  | .receive m => (.exited (m.body.word ≠ 0), afterAddUsers queue (clients.pid c))
  | .interrupted => (.exited false, queue)
  | .receiveFails success => (.exited success, queue)

end NewUsers

namespace CheckNewUsers

/-- Between its receive and its answer the director has the sender and the status. -/
inductive Phase where
  | idle
  | replying (senderPid : ℕ) (status : ℤ)
  deriving DecidableEq

/-- After `receiveFails` the sender is taken from a request that nobody has written. -/
inductive Act where
  | receive (m : AddUsersMessage) (r : NewUsersRequest)
  | noMessage
  | receiveFails (senderPid : ℕ)
  | reply (senderPid : ℕ) (status : ℤ)
  | replyFails (senderPid : ℕ) (status : ℤ)
  deriving DecidableEq

def Enabled (phase : Phase) (queue : List AddUsersMessage) : Act → Prop
  | .receive m r => phase = .idle ∧ firstAddUsers queue msgTypeAddUsersRequest = some m ∧
      m.body.size ≤ 8 ∧ m.body.ReadsAsRequest r
  | .noMessage => phase = .idle ∧ firstAddUsers queue msgTypeAddUsersRequest = none
  | .receiveFails _ => phase = .idle
  | .reply senderPid status => phase = .replying senderPid status ∧ 0 < senderPid
  | .replyFails senderPid status => phase = .replying senderPid status

instance decidableEnabled (phase : Phase) (queue : List AddUsersMessage) (a : Act) :
    Decidable (Enabled phase queue a) := by
  rcases a with _ | _ <;> (dsimp only [Enabled]; infer_instance)

def next (queue : List AddUsersMessage) : Act → Phase × List AddUsersMessage
  | .receive _ r => (.replying r.senderPid 1, afterAddUsers queue msgTypeAddUsersRequest)
  | .noMessage => (.idle, queue)
  | .receiveFails senderPid => (.replying senderPid 0, queue)
  | .reply senderPid status => (.idle, queue ++ [⟨senderPid, .done ⟨status⟩⟩])
  | .replyFails _ _ => (.idle, queue)

end CheckNewUsers

structure AddUsers (N : Type) where
  queue : List AddUsersMessage
  clients : N → NewUsers.Phase
  director : CheckNewUsers.Phase

inductive AddUsersAct (N : Type) where
  | client (c : N) (a : NewUsers.Act)
  | director (a : CheckNewUsers.Act)

def AddUsers.init {N : Type} : AddUsers N := ⟨[], fun _ => .boot, .idle⟩

variable {N : Type} [DecidableEq N]

def AddUsers.Enabled (clients : Clients N) (s : AddUsers N) : AddUsersAct N → Prop
  | .client c a => NewUsers.Enabled clients c (s.clients c) s.queue a
  | .director a => CheckNewUsers.Enabled s.director s.queue a

def AddUsers.next (clients : Clients N) (s : AddUsers N) : AddUsersAct N → AddUsers N
  | .client c a =>
    { s with
      clients := Function.update s.clients c (NewUsers.next clients c s.queue a).1
      queue := (NewUsers.next clients c s.queue a).2 }
  | .director a =>
    { s with
      director := (CheckNewUsers.next s.queue a).1
      queue := (CheckNewUsers.next s.queue a).2 }

/-- The clients and the director at the add-users queue. -/
def addUsers (clients : Clients N) : GuardedSystem (AddUsers N) (AddUsersAct N) where
  Enabled := AddUsers.Enabled clients
  next := AddUsers.next clients

instance decidableAddUsers (clients : Clients N) (s : AddUsers N) :
    ∀ a : AddUsersAct N, Decidable ((addUsers clients).Enabled s a)
  | .client c a => inferInstanceAs (Decidable (NewUsers.Enabled clients c (s.clients c) s.queue a))
  | .director a => inferInstanceAs (Decidable (CheckNewUsers.Enabled s.director s.queue a))

end PosteItaliane
