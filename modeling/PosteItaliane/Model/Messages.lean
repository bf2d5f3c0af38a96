import PosteItaliane.Framework.Mailbox
import PosteItaliane.Model.Config
import Mathlib.Algebra.Order.Field.Rat

/-!
# The ticket queue

The message structures of `comunications.h` and the one System V queue that users, the
ticket dispenser and operators share. `mq_receive` takes the first message of the wanted
type. It does not look at the kind of message: a message that is not longer than the
buffer is copied into it, a longer one makes the call fail and stays queued.
-/

namespace PosteItaliane

structure TicketRequest where
  senderPid : ℕ
  serviceId : ServiceId
  deriving DecidableEq

structure TicketResponse where
  generatorPid : ℕ
  ticketNumber : ℤ
  deriving DecidableEq

structure ServiceRequest where
  senderPid : ℕ
  ticketNumber : ℤ
  deriving DecidableEq

structure ServiceDone where
  senderPid : ℕ
  ticketNumber : ℤ
  serviceId : ServiceId
  serviceTime : ℚ
  deriving DecidableEq

inductive Body where
  | ticketRequest (r : TicketRequest)
  | ticketResponse (r : TicketResponse)
  | serviceRequest (r : ServiceRequest)
  | serviceDone (d : ServiceDone)
  deriving DecidableEq

structure Message where
  mtype : ℕ
  body : Body
  deriving DecidableEq

/-- `MSG_TYPE_TICKET_REQUEST`, the type the dispenser listens on. -/
def msgTypeTicketRequest : ℕ := 1

/-- `(MSG_TYPE_SERVICE_REQUEST MSG_TYPE_TICKET_REQUEST_MULT) + operator_pid`. -/
def serviceRequestType (operatorPid : ℕ) : ℕ := 3 * 10000 + operatorPid

/-- The two 32-bit words every message starts with, as a receiver of 8 bytes reads them. -/
def Body.words : Body → ℕ × ℤ
  | .ticketRequest r => (r.senderPid, (r.serviceId : ℕ))
  | .ticketResponse r => (r.generatorPid, r.ticketNumber)
  | .serviceRequest r => (r.senderPid, r.ticketNumber)
  | .serviceDone d => (d.senderPid, d.ticketNumber)

/-- `sizeof` of the structure that was sent. -/
def Body.size : Body → ℕ
  | .serviceDone _ => 24
  | _ => 8

/-- What `await_service_done` finds in its buffer. After a shorter message the service and
its time are whatever the buffer held before; a service outside the table has no defined
effect and is not represented. -/
def Body.ReadsAsDone (d : ServiceDone) : Body → Prop
  | .serviceDone d' => d' = d
  | b => b.words = (d.senderPid, d.ticketNumber)

instance (d : ServiceDone) : ∀ b : Body, Decidable (b.ReadsAsDone d)
  | .serviceDone d' => inferInstanceAs (Decidable (d' = d))
  | .ticketRequest r =>
    inferInstanceAs (Decidable ((Body.ticketRequest r).words = (d.senderPid, d.ticketNumber)))
  | .ticketResponse r =>
    inferInstanceAs (Decidable ((Body.ticketResponse r).words = (d.senderPid, d.ticketNumber)))
  | .serviceRequest r =>
    inferInstanceAs (Decidable ((Body.serviceRequest r).words = (d.senderPid, d.ticketNumber)))

/-- The message a receive of the given type would take. -/
def firstOfType (queue : List Message) (mtype : ℕ) : Option Message :=
  queue.find? fun m => m.mtype = mtype

/-- The queue after that receive. -/
def afterReceive (queue : List Message) (mtype : ℕ) : List Message :=
  Framework.Mailbox.rest (fun m => m.mtype = mtype) queue

theorem firstOfType_eq_some {queue : List Message} {mtype : ℕ} {m : Message}
    (h : firstOfType queue mtype = some m) : m ∈ queue ∧ m.mtype = mtype := by
  have hp := List.find?_some h
  exact ⟨List.mem_of_find?_eq_some h, by simpa using hp⟩

theorem mem_of_mem_afterReceive {queue : List Message} {mtype : ℕ} {m : Message}
    (h : m ∈ afterReceive queue mtype) : m ∈ queue :=
  Framework.Mailbox.mem_of_mem_rest h

end PosteItaliane
