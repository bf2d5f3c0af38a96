import PosteItaliane.Model.Shared

/-!
# The ticket dispenser

The loop of `erogatore_ticket.c`. The counter is a C `int` and wraps. A response is sent
before the counter is incremented.
-/

namespace PosteItaliane

namespace ErogatoreTicket

inductive Phase where
  | idle
  | holding (senderPid : ℕ)
  | sent
  | stopped
  deriving DecidableEq

structure Local where
  phase : Phase
  ticketCounter : ℤ
  deriving DecidableEq

/-- `interrupted` is a receive that fails with `EINTR`. -/
inductive Act where
  | receive (m : Message)
  | interrupted
  | receiveFails
  | reply (senderPid : ℕ)
  | replyFails (senderPid : ℕ)
  | count
  deriving DecidableEq

/-- `ticket_counter++` on a 32-bit `int`. -/
def increment (n : ℤ) : ℤ := Int.bmod (n + 1) (2 ^ 32)

variable {O U : Type} [Fintype O] [Fintype U] (site : Site O U)

def Enabled (l : Local) (sh : Shared O U) : Act → Prop
  | .receive m => l.phase = .idle ∧ firstOfType sh.queue msgTypeTicketRequest = some m ∧
      m.body.size ≤ 8
  | .interrupted => l.phase = .idle
  | .receiveFails => l.phase = .idle
  | .reply pid => l.phase = .holding pid
  | .replyFails pid => l.phase = .holding pid
  | .count => l.phase = .sent

instance (l : Local) (sh : Shared O U) (a : Act) : Decidable (Enabled l sh a) := by
  rcases a with _ | _ <;> (dsimp only [Enabled]; infer_instance)

def next (l : Local) (sh : Shared O U) : Act → Local × Shared O U
  | .receive m => ({ l with phase := .holding m.body.words.1 },
      { sh with queue := afterReceive sh.queue msgTypeTicketRequest })
  | .interrupted => (l, sh)
  | .receiveFails => ({ l with phase := .stopped }, sh)
  | .reply pid => ({ l with phase := .sent },
      { sh with queue := sh.queue ++
        [⟨pid, .ticketResponse ⟨site.ticketPid, l.ticketCounter⟩⟩] })
  | .replyFails _ => ({ l with phase := .sent }, sh)
  | .count => ({ phase := .idle, ticketCounter := increment l.ticketCounter }, sh)

end ErogatoreTicket

end PosteItaliane
