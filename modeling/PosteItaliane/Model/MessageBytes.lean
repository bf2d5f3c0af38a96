import PosteItaliane.Framework.Memory
import PosteItaliane.Model.Messages

/-!
# Messages as bytes

What `mq_send` and `mq_receive` copy. The structures of `comunications.h` are laid out as on a
64-bit machine: `pid_t` and `int` take four bytes, and the `double` of `service_done` comes
after four bytes of padding that nobody sets. `mq_receive` copies as many bytes as the message
has, and what its buffer held behind them stays.
-/

namespace PosteItaliane

open Framework Framework.Memory

/-- How the compiler represents a `double`. -/
structure DoubleFormat where
  bytes : ℚ → List UInt8
  length_bytes : ∀ t, (bytes t).length = 8

structure RawMessage where
  mtype : ℕ
  mtext : List UInt8
  deriving DecidableEq

def TicketRequest.bytes (r : TicketRequest) : List UInt8 :=
  intBytes 4 r.senderPid ++ intBytes 4 (r.serviceId : ℕ)

def TicketResponse.bytes (r : TicketResponse) : List UInt8 :=
  intBytes 4 r.generatorPid ++ intBytes 4 r.ticketNumber

def ServiceRequest.bytes (r : ServiceRequest) : List UInt8 :=
  intBytes 4 r.senderPid ++ intBytes 4 r.ticketNumber

/-- With whatever is in the padding. -/
def ServiceDone.bytes (double : DoubleFormat) (padding : List UInt8) (d : ServiceDone) :
    List UInt8 :=
  intBytes 4 d.senderPid ++ (intBytes 4 d.ticketNumber ++ (intBytes 4 (d.serviceId : ℕ) ++
    (padding ++ double.bytes d.serviceTime)))

def Body.bytes (double : DoubleFormat) (padding : List UInt8) : Body → List UInt8
  | .ticketRequest r => r.bytes
  | .ticketResponse r => r.bytes
  | .serviceRequest r => r.bytes
  | .serviceDone d => d.bytes double padding

namespace RawQueue

/-- `mq_send` of some bytes. -/
def mqSend (queue : List RawMessage) (mtype : ℕ) (data : List UInt8) : List RawMessage :=
  queue ++ [⟨mtype, data⟩]

/-- What a receive returns: nothing to take, `E2BIG`, or the number of bytes in the buffer. -/
inductive Receipt where
  | noMessage
  | tooLong
  | received (length : ℕ) (buffer : List UInt8)
  deriving DecidableEq

/-- `mq_receive` into a buffer, of which all bytes may be filled. -/
def mqReceive (queue : List RawMessage) (mtype : ℕ) (buffer : List UInt8) :
    Receipt × List RawMessage :=
  match queue.find? fun m => m.mtype = mtype with
  | none => (.noMessage, queue)
  | some m =>
    if buffer.length < m.mtext.length then (.tooLong, queue)
    else (.received m.mtext.length (overwrite m.mtext buffer),
      Mailbox.rest (fun m => m.mtype = mtype) queue)

end RawQueue

end PosteItaliane
