import PosteItaliane.Proofs.Letters
import Mathlib.Algebra.Order.BigOperators.Group.Finset

/-!
# Room in the ticket queue

The kernel gives a queue a number of bytes, and a process that sends a message for which there
is no room waits. Every message is there because a user waits for it or for its answer, and a
user waits for one at a time. So a queue with room for one message of each user makes nobody
wait, unless users stop to wait because their receive fails and leave messages behind.
-/

namespace PosteItaliane

open Framework Framework.Mailbox

variable {O U : Type} [Fintype O] [Fintype U]

/-- The requests that have left the queue and are not answered yet. -/
def World.inHand (w : World O U) : ℕ :=
  w.ticket.phase.held.isSome.toNat + ∑ o, (w.heldBy o).isSome.toNat

/-- The users that are blocked in a receive. -/
def World.waiting (site : Site O U) (w : World O U) : ℕ := ∑ u, (w.awaitedBy site u).isSome.toNat

/-- A request that is received and not answered. -/
def Act.drops : Act O U → Bool
  | .oper _ (.receive _ m) => Operatore.Ignored (Operatore.readRequest m)
  | .oper _ (.replyFails _ _ _) => true
  | .ticket (.replyFails _) => true
  | _ => false

/-- A user that goes on without the message it waited for. -/
def Act.abandons : Act O U → Bool
  | .user _ (.receiveTicketFails _) => true
  | .user _ (.receiveDoneFails _ _ _) => true
  | _ => false

theorem waiting_le_card (site : Site O U) (w : World O U) : w.waiting site ≤ Fintype.card U := by
  have hle := Finset.sum_le_card_nsmul Finset.univ
    (fun u => (w.awaitedBy site u).isSome.toNat) 1 fun u _ => Bool.toNat_le _
  simpa [World.waiting] using hle

variable [DecidableEq O] [DecidableEq U]

theorem length_afterReceive {q : List Message} {t : ℕ} {m : Message}
    (h : firstOfType q t = some m) : q.length = (afterReceive q t).length + 1 :=
  (perm_of_find? h).length_eq

theorem waiting_user (site : Site O U) (w : World O U) (u : U) (b : Utente.Act) :
    (w.next site (.user u b)).waiting site + (w.awaitedBy site u).isSome.toNat =
      w.waiting site + ((Utente.next site u (w.users u) w.sh b).1.phase.awaited
        (site.userPid u)).isSome.toNat := by
  have hnext : (w.next site (.user u b)).awaitedBy site = Function.update (w.awaitedBy site) u
      ((Utente.next site u (w.users u) w.sh b).1.phase.awaited (site.userPid u)) :=
    users_next (fun v l => l.phase.awaited (site.userPid v)) site w u b
  rw [World.waiting, hnext]
  exact sum_update (fun l => l.isSome.toNat) (w.awaitedBy site) u _

theorem inHand_oper (site : Site O U) (w : World O U) (o : O) (b : Operatore.Act) :
    (w.next site (.oper o b)).inHand + (w.heldBy o).isSome.toNat =
      w.inHand + (Operatore.next site o (w.opers o) w.sh b).1.phase.held.isSome.toNat := by
  have hnext : (w.next site (.oper o b)).heldBy = Function.update w.heldBy o
      (Operatore.next site o (w.opers o) w.sh b).1.phase.held :=
    opers_next (fun _ l => l.phase.held) site w o b
  have hsum := sum_update (fun l => l.isSome.toNat) w.heldBy o
    (Operatore.next site o (w.opers o) w.sh b).1.phase.held
  rw [← hnext] at hsum
  have hticket : (w.next site (.oper o b)).ticket = w.ticket := rfl
  simp only [World.inHand, hticket]
  omega

/-- A step adds a message when a user begins to wait and takes one when a user has waited, up to
the two ways in which they lose each other. -/
def KeepsMessages (site : Site O U) (w : World O U) (a : Act O U) : Prop :=
  (w.next site a).sh.queue.length + (w.next site a).inHand + w.waiting site + a.drops.toNat =
    w.sh.queue.length + w.inHand + (w.next site a).waiting site + a.abandons.toNat

theorem keepsMessages_user {site : Site O U} {w : World O U} {u : U} {b : Utente.Act}
    (h : (w.next site (.user u b)).sh.queue.length + (w.awaitedBy site u).isSome.toNat =
      w.sh.queue.length + ((Utente.next site u (w.users u) w.sh b).1.phase.awaited
        (site.userPid u)).isSome.toNat + (Act.user u b : Act O U).abandons.toNat) :
    KeepsMessages site w (.user u b) := by
  have hwaiting := waiting_user site w u b
  have hhand : (w.next site (.user u b)).inHand = w.inHand := rfl
  have hdrops : (Act.user u b : Act O U).drops = false := rfl
  rw [KeepsMessages, hhand, hdrops, Bool.toNat_false]
  omega

theorem messages_user (site : Site O U) {w : World O U} {u : U} {b : Utente.Act}
    (ha : w.Enabled site (.user u b)) : KeepsMessages site w (.user u b) := by
  have hstep := queue_step site ha
  obtain ⟨-, he⟩ := ha
  have hquiet (hrel : Reliable (.user u b : Act O U)) (hsent : sentBy site w (.user u b) = none)
      (hreceived : receivedBy (.user u b : Act O U) = none)
      (hkeep : (Act.user u b : Act O U).abandons = false) :
      KeepsMessages site w (.user u b) := by
    rw [hreceived, hsent] at hstep
    have hq : (w.next site (.user u b)).sh.queue = w.sh.queue := by simpa using hstep
    apply keepsMessages_user
    rw [hq, hkeep, awaited_keep site he hrel hsent hreceived]
    rfl
  cases b
  case sendTicket s =>
    have he : (w.users u).phase = .sendTicket s := he
    apply keepsMessages_user
    rw [hstep, List.length_append, World.awaitedBy, he]
    rfl
  case sendRequest x k op start =>
    have he : (w.users u).phase = .sendRequest x k op start := he
    apply keepsMessages_user
    rw [hstep, List.length_append, World.awaitedBy, he]
    rfl
  case receiveTicket s m =>
    obtain ⟨hfirst, hq⟩ := hstep
    have hnone : (Utente.next site u (w.users u) w.sh (.receiveTicket s m)).1.phase.awaited
        (site.userPid u) = none := by
      simp only [Utente.next]
      split <;> rfl
    apply keepsMessages_user
    rw [hq, hnone, length_afterReceive hfirst, World.awaitedBy, he.1]
    rfl
  case receiveDone x k start m d =>
    obtain ⟨hfirst, hq⟩ := hstep
    have hnone : (Utente.next site u (w.users u) w.sh (.receiveDone x k start m d)).1.phase.awaited
        (site.userPid u) = none := by
      simp only [Utente.next]
      split <;> rfl
    apply keepsMessages_user
    rw [hq, hnone, length_afterReceive hfirst, World.awaitedBy, he.1]
    rfl
  case receiveTicketFails s =>
    have he : (w.users u).phase = .awaitTicket s := he
    apply keepsMessages_user
    rw [World.awaitedBy, he]
    rfl
  case receiveDoneFails x k start =>
    have he : (w.users u).phase = .awaitDone x k start := he
    apply keepsMessages_user
    rw [World.awaitedBy, he]
    rfl
  case sendTicketFails s =>
    have he : (w.users u).phase = .sendTicket s := he
    apply keepsMessages_user
    rw [World.awaitedBy, he]
    rfl
  case sendRequestFails x k op start =>
    have he : (w.users u).phase = .sendRequest x k op start := he
    apply keepsMessages_user
    rw [World.awaitedBy, he]
    rfl
  all_goals exact hquiet trivial rfl rfl rfl

theorem keepsMessages_oper {site : Site O U} {w : World O U} {o : O} {b : Operatore.Act}
    (h : (w.next site (.oper o b)).sh.queue.length +
        (Operatore.next site o (w.opers o) w.sh b).1.phase.held.isSome.toNat +
        (Act.oper o b : Act O U).drops.toNat =
      w.sh.queue.length + (w.heldBy o).isSome.toNat) : KeepsMessages site w (.oper o b) := by
  have hhand := inHand_oper site w o b
  have hwaiting : (w.next site (.oper o b)).waiting site = w.waiting site := rfl
  have habandons : (Act.oper o b : Act O U).abandons = false := rfl
  rw [KeepsMessages, hwaiting, habandons, Bool.toNat_false]
  omega

theorem messages_oper (site : Site O U) {w : World O U} {o : O} {b : Operatore.Act}
    (ha : w.Enabled site (.oper o b)) : KeepsMessages site w (.oper o b) := by
  have hstep := queue_step site ha
  obtain ⟨-, he⟩ := ha
  have hquiet (hrel : Reliable (.oper o b : Act O U)) (hsent : sentBy site w (.oper o b) = none)
      (hreceived : receivedBy (.oper o b : Act O U) = none)
      (hkeep : (Act.oper o b : Act O U).drops = false) : KeepsMessages site w (.oper o b) := by
    rw [hreceived, hsent] at hstep
    have hq : (w.next site (.oper o b)).sh.queue = w.sh.queue := by simpa using hstep
    apply keepsMessages_oper
    rw [hq, hkeep, held_keep site he hrel hsent hreceived]
    rfl
  cases b
  case receive k m =>
    obtain ⟨hfirst, hq⟩ := hstep
    apply keepsMessages_oper
    rw [hq, length_afterReceive hfirst, World.heldBy, he.1]
    by_cases hignored : Operatore.Ignored (Operatore.readRequest m)
    · simp [Operatore.next, hignored, Operatore.Phase.held, Act.drops]
    · simp [Operatore.next, hignored, Operatore.Phase.held, Act.drops]
  case reply k q time =>
    have he : (w.opers o).phase = .reply k q time := he
    apply keepsMessages_oper
    rw [hstep, List.length_append, World.heldBy, he]
    rfl
  case receiveFails k =>
    have he : (w.opers o).phase = .receive k := he
    apply keepsMessages_oper
    rw [World.heldBy, he]
    rfl
  case replyFails k q time =>
    have he : (w.opers o).phase = .reply k q time := he
    apply keepsMessages_oper
    rw [World.heldBy, he]
    rfl
  all_goals exact hquiet trivial rfl rfl rfl

theorem keepsMessages_ticket {site : Site O U} {w : World O U} {b : ErogatoreTicket.Act}
    (h : (w.next site (.ticket b)).sh.queue.length +
        (w.next site (.ticket b)).ticket.phase.held.isSome.toNat +
        (Act.ticket b : Act O U).drops.toNat =
      w.sh.queue.length + w.ticket.phase.held.isSome.toNat) : KeepsMessages site w (.ticket b) := by
  have hwaiting : (w.next site (.ticket b)).waiting site = w.waiting site := rfl
  have hopers : (w.next site (.ticket b)).heldBy = w.heldBy := rfl
  have habandons : (Act.ticket b : Act O U).abandons = false := rfl
  rw [KeepsMessages, hwaiting, habandons, Bool.toNat_false, World.inHand, World.inHand, hopers]
  omega

theorem messages_ticket (site : Site O U) {w : World O U} {b : ErogatoreTicket.Act}
    (ha : w.Enabled site (.ticket b)) : KeepsMessages site w (.ticket b) := by
  have hstep := queue_step site ha
  apply keepsMessages_ticket
  cases b
  case receive m =>
    obtain ⟨hfirst, hq⟩ := hstep
    rw [hq, length_afterReceive hfirst, ha.1]
    rfl
  case interrupted => rfl
  case receiveFails =>
    have he : w.ticket.phase = .idle := ha
    rw [he]
    rfl
  case reply pid =>
    have he : w.ticket.phase = .holding pid := ha
    rw [hstep, List.length_append, he]
    rfl
  case replyFails pid =>
    have he : w.ticket.phase = .holding pid := ha
    rw [he]
    rfl
  case count =>
    have he : w.ticket.phase = .sent := ha
    rw [he]
    rfl

theorem messages_step (site : Site O U) {w : World O U} {a : Act O U} (ha : w.Enabled site a) :
    KeepsMessages site w a := by
  cases a with
  | user u b => exact messages_user site ha
  | oper o b => exact messages_oper site ha
  | ticket b => exact messages_ticket site ha
  | director b =>
    have hq : (w.next site (.director b)).sh.queue = w.sh.queue := by cases b <;> rfl
    have hhand : (w.next site (.director b)).inHand = w.inHand := rfl
    have hawaited : (w.next site (.director b)).awaitedBy site = w.awaitedBy site :=
      funext (users_director (fun u p => p.awaited (site.userPid u)) (fun _ => rfl) site ha.2.2)
    rw [KeepsMessages, hq, hhand, World.waiting, World.waiting, hawaited]
    rfl
  | «section» => rfl

omit [DecidableEq O] in
theorem waiting_init (site : Site O U) : (World.init site).waiting site = 0 := by
  apply Finset.sum_eq_zero
  intro u _
  by_cases h : u ∈ site.initialUsers <;>
    simp [World.awaitedBy, World.init, h, Utente.Phase.awaited]

omit [DecidableEq O] in
theorem inHand_init (site : Site O U) : (World.init site).inHand = 0 := by
  simp [World.inHand, World.heldBy, World.init, Operatore.Phase.held, ErogatoreTicket.Phase.held]

theorem countP_snoc {α : Type*} (f : α → Bool) (as : List α) (a : α) :
    (as ++ [a]).countP f = as.countP f + (f a).toNat := by
  rw [List.countP_append, List.countP_singleton]
  cases f a <;> rfl

/-- In every run the messages that are queued or being answered, with those that were lost, are
as many as the users that wait, with those that stopped to wait. -/
theorem messages_conserved (site : Site O U) (as : List (Act O U))
    (h : (poste site).Runs (World.init site) as) :
    ((poste site).after (World.init site) as).sh.queue.length +
        ((poste site).after (World.init site) as).inHand + as.countP Act.drops =
      ((poste site).after (World.init site) as).waiting site + as.countP Act.abandons := by
  refine (poste site).trace_invariant (P := fun as w => w.sh.queue.length + w.inHand +
    as.countP Act.drops = w.waiting site + as.countP Act.abandons) ?_ ?_ as h
  · rw [waiting_init, inHand_init]
    rfl
  · intro as w a hw ha
    have hstep : KeepsMessages site w a := messages_step site ha
    rw [KeepsMessages] at hstep
    rw [countP_snoc, countP_snoc]
    show (w.next site a).sh.queue.length + (w.next site a).inHand + _ =
      (w.next site a).waiting site + _
    omega

def queueBytes (queue : List Message) : ℕ := (queue.map fun m => m.body.size).sum

theorem queueBytes_le (queue : List Message) : queueBytes queue ≤ 24 * queue.length := by
  induction queue with
  | nil => exact le_rfl
  | cons m queue ih =>
    have hsize : m.body.size ≤ 24 := by cases m.body <;> simp [Body.size]
    have hcons : queueBytes (m :: queue) = m.body.size + queueBytes queue := by
      simp [queueBytes]
    rw [hcons, List.length_cons]
    omega

/-- `msgsnd` waits until the queue has room for the message. -/
def HasRoom (site : Site O U) (capacity : ℕ) (w : World O U) (a : Act O U) : Prop :=
  ∀ m, sentBy site w a = some m → queueBytes w.sh.queue + m.body.size ≤ capacity

instance (site : Site O U) (capacity : ℕ) (w : World O U) (a : Act O U) :
    Decidable (HasRoom site capacity w a) :=
  inferInstanceAs (Decidable (∀ m ∈ sentBy site w a,
    queueBytes w.sh.queue + m.body.size ≤ capacity))

/-- The simulation with a queue of the given capacity. -/
def posteCapacity (site : Site O U) (capacity : ℕ) : GuardedSystem (World O U) (Act O U) :=
  (poste site).restrict (HasRoom site capacity)

instance (site : Site O U) (capacity : ℕ) (w : World O U) (a : Act O U) :
    Decidable ((posteCapacity site capacity).Enabled w a) :=
  inferInstanceAs (Decidable (((poste site).restrict (HasRoom site capacity)).Enabled w a))

theorem queueBytes_le_users (site : Site O U) (as : List (Act O U))
    (h : (poste site).Runs (World.init site) as) :
    queueBytes ((poste site).after (World.init site) as).sh.queue ≤
      24 * (Fintype.card U + as.countP Act.abandons) := by
  have hconserved := messages_conserved site as h
  have hwaiting := waiting_le_card site ((poste site).after (World.init site) as)
  have hbytes := queueBytes_le ((poste site).after (World.init site) as).sh.queue
  omega

theorem hasRoom_of_bytes {site : Site O U} {capacity : ℕ} {w : World O U} {a : Act O U}
    (ha : w.Enabled site a) (h : queueBytes (w.next site a).sh.queue ≤ capacity) :
    HasRoom site capacity w a := by
  intro m hm
  have hstep := queue_step site ha
  have hreceived : receivedBy a = none := by
    cases a with
    | user u b => cases b <;> first | rfl | cases hm
    | oper o b => cases b <;> first | rfl | cases hm
    | ticket b => cases b <;> first | rfl | cases hm
    | director b => cases hm
    | «section» => cases hm
  rw [hreceived, hm] at hstep
  rw [hstep] at h
  simpa [queueBytes] using h

/-- If the queue has room for a message of every user and for one of each receive of a user that
fails, nobody ever has to wait to send. -/
theorem sends_never_wait (site : Site O U) (capacity : ℕ) (as : List (Act O U))
    (h : (poste site).Runs (World.init site) as)
    (hcapacity : 24 * (Fintype.card U + as.countP Act.abandons) ≤ capacity) :
    (posteCapacity site capacity).Runs (World.init site) as := by
  induction as using List.reverseRecOn with
  | nil => trivial
  | append_singleton as a ih =>
    obtain ⟨has, ha⟩ := ((poste site).runs_snoc _ as a).mp h
    have hbytes := queueBytes_le_users site (as ++ [a]) h
    rw [GuardedSystem.after_snoc] at hbytes
    have hfewer : as.countP Act.abandons ≤ (as ++ [a]).countP Act.abandons := by
      rw [countP_snoc]
      exact Nat.le_add_right _ _
    refine (GuardedSystem.runs_snoc _ _ as a).mpr ⟨ih has (by omega), ha, ?_⟩
    exact hasRoom_of_bytes ha (hbytes.trans hcapacity)

/-- A user asks for a ticket and is interrupted while it waits. -/
def officeGivenUp : List (Act (Fin 2) (Fin 2)) :=
  [.user 0 (.arrive 1195), .user 0 (.nextService 0 []), .user 0 (.sendTicket 0),
    .user 0 (.receiveTicketFails 0)]

theorem sends_never_wait_office : (posteCapacity office 72).Runs (World.init office)
    ((officeNight ++ officeWait) ++ officeGivenUp) := by
  refine sends_never_wait office 72 _ ?_ ?_
  · rw [GuardedSystem.runs_append, officeWait_after]
    exact ⟨officeWait_runs, by decide⟩
  · have hwait : ∀ a ∈ officeNight ++ officeWait, a.abandons = false := by
      intro a ha
      rcases List.mem_append.mp ha with ha | ha
      · exact (by decide : ∀ a ∈ officeNight, a.abandons = false) a ha
      · exact forall_mem_officeWait (P := fun a => a.abandons = false)
          (by simp [quietMinute, Act.abandons]) (by decide) a ha
    have hnone : (officeNight ++ officeWait).countP Act.abandons = 0 :=
      List.countP_eq_zero.mpr fun a ha => by rw [hwait a ha]; exact Bool.false_ne_true
    rw [List.countP_append, hnone]
    decide

/-- The dispenser has a ticket to send, and the queue is full of requests that only the dispenser
receives. -/
structure Jammed (site : Site O U) (capacity : ℕ) (w : World O U) : Prop where
  full : capacity < queueBytes w.sh.queue + 8
  requests : ∀ m ∈ w.sh.queue, m.mtype = msgTypeTicketRequest
  holding : ∃ pid, w.ticket.phase = .holding pid
  idle : ∀ o, w.heldBy o = none

theorem Jammed.not_sent {site : Site O U} {capacity : ℕ} {w : World O U}
    (h : Jammed site capacity w) {a : Act O U} (ha : (posteCapacity site capacity).Enabled w a) :
    sentBy site w a = none := by
  cases hsent : sentBy site w a with
  | none => rfl
  | some m =>
    have hroom := ha.2 m hsent
    have hsize : 8 ≤ m.body.size := by cases m.body <;> simp [Body.size]
    have hfull := h.full
    omega

omit [DecidableEq O] [DecidableEq U] in
theorem Jammed.not_received {site : Site O U} (hpids : ∀ u, site.userPid u ≠ msgTypeTicketRequest)
    {capacity : ℕ} {w : World O U} (h : Jammed site capacity w) {a : Act O U}
    (ha : w.Enabled site a) : receivedBy a = none := by
  have hnone {t : ℕ} (ht : t ≠ msgTypeTicketRequest) {m : Message}
      (hm : firstOfType w.sh.queue t = some m) : False := by
    obtain ⟨hmem, htype⟩ := firstOfType_eq_some hm
    exact ht (htype.symm.trans (h.requests m hmem))
  cases a with
  | user u b =>
    cases b <;> try rfl
    case receiveTicket s m => exact (hnone (hpids u) ha.2.2.1).elim
    case receiveDone x k start m d => exact (hnone (hpids u) ha.2.2.1).elim
  | oper o b =>
    cases b <;> try rfl
    case receive k m =>
      have hne : serviceRequestType (site.operatorPid o) ≠ msgTypeTicketRequest := by
        simp only [serviceRequestType, msgTypeTicketRequest]
        omega
      exact (hnone hne ha.2.2.1).elim
  | ticket b =>
    cases b <;> try rfl
    case receive m =>
      obtain ⟨pid, hholding⟩ := h.holding
      rw [ha.1] at hholding
      cases hholding
  | director b => rfl
  | «section» => rfl

theorem Jammed.step {site : Site O U} (hpids : ∀ u, site.userPid u ≠ msgTypeTicketRequest)
    {capacity : ℕ} {w : World O U} (h : Jammed site capacity w) {a : Act O U}
    (ha : (posteCapacity site capacity).Enabled w a) (hdrops : a.drops = false) :
    Jammed site capacity (w.next site a) ∧ (w.next site a).sh.queue = w.sh.queue := by
  have hsent := h.not_sent ha
  have hreceived := h.not_received hpids ha.1
  have hq : (w.next site a).sh.queue = w.sh.queue := by
    have hstep := queue_step site ha.1
    rw [hreceived, hsent] at hstep
    simpa using hstep
  refine ⟨⟨?_, ?_, ?_, fun o => ?_⟩, hq⟩
  · rw [hq]
    exact h.full
  · rw [hq]
    exact h.requests
  · obtain ⟨pid, hpid⟩ := h.holding
    refine ⟨pid, ?_⟩
    cases a with
    | ticket b =>
      have he : ErogatoreTicket.Enabled w.ticket w.sh b := ha.1
      cases b <;> simp [ErogatoreTicket.Enabled, hpid] at he
      case reply pid => cases hsent
      case replyFails pid => cases hdrops
    | _ => exact hpid
  · rcases oper_step site ha.1 o with hkeep | ⟨b, rfl, he, hnext⟩
    · rw [World.heldBy, hkeep]
      exact h.idle o
    · rw [World.heldBy, hnext]
      cases b
      case receive k m => cases hreceived
      case reply k q time => cases hsent
      case replyFails k q time => cases hdrops
      case receiveFails k => rfl
      all_goals exact (held_keep site he trivial rfl rfl).trans (h.idle o)

theorem Jammed.awaited_step {site : Site O U}
    (hpids : ∀ u, site.userPid u ≠ msgTypeTicketRequest) {capacity : ℕ} {w : World O U}
    (h : Jammed site capacity w) {a : Act O U} (ha : (posteCapacity site capacity).Enabled w a)
    (habandons : a.abandons = false) {u : U} {l : Letter} (hl : w.awaitedBy site u = some l) :
    (w.next site a).awaitedBy site u = some l := by
  have hreceived := h.not_received hpids ha.1
  rcases user_step site ha.1 u with hkeep | ⟨b, rfl, he, -⟩ | ⟨n, -, hphase, -⟩
  · rw [World.awaitedBy, hkeep]
    exact hl
  · rw [World.awaitedBy] at hl
    cases hphase : (w.users u).phase <;> rw [hphase] at hl <;> cases hl
    all_goals
      cases b <;> simp [Utente.Enabled, hphase] at he
      · cases hreceived
      · cases habandons
  · rw [World.awaitedBy, hphase] at hl
    cases hl

/-- Then the queue stays as it is and everybody who waits for a message waits, however long the
simulation goes on without a failing call. -/
theorem jammed_forever (site : Site O U) (hpids : ∀ u, site.userPid u ≠ msgTypeTicketRequest)
    (capacity : ℕ) (w : World O U) (hjammed : Jammed site capacity w) (as : List (Act O U))
    (h : (posteCapacity site capacity).Runs w as)
    (hcalls : ∀ a ∈ as, a.drops = false ∧ a.abandons = false) :
    ((poste site).after w as).sh.queue = w.sh.queue ∧
      ∀ u l, w.awaitedBy site u = some l →
        ((poste site).after w as).awaitedBy site u = some l := by
  induction as generalizing w with
  | nil => exact ⟨rfl, fun u l hl => hl⟩
  | cons a as ih =>
    obtain ⟨hdrops, habandons⟩ := hcalls a List.mem_cons_self
    obtain ⟨hnext, hq⟩ := hjammed.step hpids h.1 hdrops
    obtain ⟨hqueue, hawaited⟩ :=
      ih _ hnext h.2 fun b hb => hcalls b (List.mem_cons_of_mem a hb)
    refine ⟨hqueue.trans hq, fun u l hl => hawaited u l ?_⟩
    exact hjammed.awaited_step hpids h.1 habandons hl

/-- The dispenser takes the request of one user, and the other one sends its own. -/
def officeJam : List (Act (Fin 2) (Fin 2)) :=
  [.user 0 (.arrive 1195), .user 0 (.nextService 0 []), .user 0 (.sendTicket 0),
    .user 1 (.arrive 1195), .user 1 (.nextService 0 []),
    .ticket (.receive ⟨1, .ticketRequest ⟨29999, 0⟩⟩), .user 1 (.sendTicket 0)]

/-- In a queue with room for one request this happens, and the office closes on both users. -/
theorem jammed_forever_office :
    (posteCapacity office 8).Runs (World.init office) ((officeNight ++ officeWait) ++ officeJam) ∧
      ((poste office).after ((poste office).after officeBeforeClosing officeJam)
        (quietMinute 1199 ++ closing 1200 2)).sh.queue =
          ((poste office).after officeBeforeClosing officeJam).sh.queue ∧
      ∀ u l, ((poste office).after officeBeforeClosing officeJam).awaitedBy office u = some l →
        ((poste office).after ((poste office).after officeBeforeClosing officeJam)
          (quietMinute 1199 ++ closing 1200 2)).awaitedBy office u = some l := by
  refine ⟨?_, jammed_forever office (by decide) 8 _ ?_ _ (by decide) (by decide)⟩
  · have hquiet (m : ℤ) : ∀ a ∈ quietMinute m, ∀ w, HasRoom office 8 w a := by
      simp [quietMinute, HasRoom, sentBy]
    have hwait : (posteCapacity office 8).Runs (World.init office) (officeNight ++ officeWait) :=
      officeWait_restrict hquiet (by decide) (by decide)
    rw [GuardedSystem.runs_append]
    refine ⟨hwait, ?_⟩
    rw [posteCapacity, GuardedSystem.restrict_after, officeWait_after]
    decide
  · exact ⟨by decide, by decide, ⟨29999, by decide⟩, by decide⟩

end PosteItaliane
