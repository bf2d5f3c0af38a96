import PosteItaliane.Proofs.Choices

/-!
# Letters in flight

A request and its reply are one letter on its way back to the user that waits for it: it is
in the queue, in the hands of the dispenser or of an operator, or in the queue again. When
no call on the queue fails and no user takes a message that is not meant for it, the
letters in flight are exactly the ones that are waited for.
-/

namespace PosteItaliane

open Framework Framework.Mailbox

/-- A request on its way back to the process it came from. -/
inductive Letter where
  | ticket (pid : ℕ)
  | service (pid : ℕ) (number : ℤ)
  deriving DecidableEq

def Letter.pid : Letter → ℕ
  | .ticket pid => pid
  | .service pid _ => pid

def Message.letter (m : Message) : Letter :=
  match m.body with
  | .ticketRequest r => .ticket r.senderPid
  | .ticketResponse _ => .ticket m.mtype
  | .serviceRequest r => .service r.senderPid r.ticketNumber
  | .serviceDone d => .service m.mtype d.ticketNumber

def ErogatoreTicket.Phase.held : ErogatoreTicket.Phase → Option Letter
  | .holding pid => some (.ticket pid)
  | _ => none

def Operatore.Phase.held : Operatore.Phase → Option Letter
  | .request _ q => some (.service q.senderPid q.ticketNumber)
  | .serve _ q => some (.service q.senderPid q.ticketNumber)
  | .reply _ q _ => some (.service q.senderPid q.ticketNumber)
  | _ => none

/-- What a user with the given process id is blocked on. -/
def Utente.Phase.awaited (pid : ℕ) : Utente.Phase → Option Letter
  | .awaitTicket _ => some (.ticket pid)
  | .awaitDone x _ _ => some (.service pid x.ticket)
  | _ => none

/-- The session of a user that has its ticket. -/
def Utente.Phase.session : Utente.Phase → Option Utente.Session
  | .findSeats x => some x
  | .takeSeat x _ => some x
  | .nap x _ => some x
  | .napOver x _ => some x
  | .tryFreed x _ => some x
  | .readOperator x _ => some x
  | .readStart x _ _ => some x
  | .sendRequest x _ _ _ => some x
  | .awaitDone x _ _ => some x
  | .readEnd x _ _ _ => some x
  | .countServed x _ _ _ => some x
  | .checkLate x _ => some x
  | .releaseSeat x _ => some x
  | .signalFreed x _ => some x
  | _ => none

theorem awaited_eq_service {p : Utente.Phase} {pid pid' : ℕ} {n : ℤ}
    (h : p.awaited pid = some (.service pid' n)) :
    ∃ x k start, p = .awaitDone x k start ∧ x.ticket = n := by
  cases p <;> simp only [Utente.Phase.awaited, reduceCtorEq, Option.some.injEq] at h
  case awaitDone x k start =>
    rw [Letter.service.injEq] at h
    exact ⟨x, k, start, rfl, h.2⟩

def queued (q : List Message) (l : Letter) : ℕ := tally (fun m => some m.letter) q l

theorem queued_send (q : List Message) (m : Message) (l : Letter) :
    queued (q ++ [m]) l = queued q l + hit (some m.letter) l :=
  tally_send _ q m l

theorem queued_receive {q : List Message} {t : ℕ} {m : Message}
    (h : firstOfType q t = some m) (l : Letter) :
    queued q l = queued (afterReceive q t) l + hit (some m.letter) l :=
  tally_receive h _ l

variable {O U : Type} [Fintype O] [Fintype U]

def World.heldBy (w : World O U) (o : O) : Option Letter := (w.opers o).phase.held

def World.awaitedBy (site : Site O U) (w : World O U) (u : U) : Option Letter :=
  (w.users u).phase.awaited (site.userPid u)

def World.inFlight (w : World O U) (l : Letter) : ℕ :=
  queued w.sh.queue l + hit w.ticket.phase.held l + total w.heldBy l

def World.awaited (site : Site O U) (w : World O U) (l : Letter) : ℕ :=
  total (w.awaitedBy site) l

/-- No user has a process id that is a type of messages to somebody else. -/
structure PidsApart (site : Site O U) : Prop where
  dispenser : ∀ u, site.userPid u ≠ msgTypeTicketRequest
  operator : ∀ u o, site.userPid u ≠ serviceRequestType (site.operatorPid o)

/-- No call on the ticket queue fails, except a receive of an operator that finds nothing. -/
def Reliable : Act O U → Prop
  | .user _ (.sendTicketFails _) => False
  | .user _ (.receiveTicketFails _) => False
  | .user _ (.sendRequestFails _ _ _ _) => False
  | .user _ (.receiveDoneFails _ _ _) => False
  | .oper _ (.receiveFails _) => False
  | .oper _ (.replyFails _ _ _) => False
  | .ticket .interrupted => False
  | .ticket .receiveFails => False
  | .ticket (.replyFails _) => False
  | _ => True

instance (a : Act O U) : Decidable (Reliable a) := by
  rcases a with ⟨o, b⟩ | ⟨u, b⟩ | b | _
  case oper => rcases b with _ | _ <;> (dsimp only [Reliable]; infer_instance)
  case user => rcases b with _ | _ <;> (dsimp only [Reliable]; infer_instance)
  case ticket => rcases b with _ | _ <;> (dsimp only [Reliable]; infer_instance)
  all_goals exact isTrue trivial

/-- A request that is sent to the process id 0 does not reach a user. -/
def NotToUser (site : Site O U) : Act O U → Prop
  | .user _ (.sendRequest _ _ op _) => op = 0 → ∀ u, site.userPid u ≠ serviceRequestType 0
  | _ => True

/-- The types and senders of the messages in the queue. -/
structure WellTyped (site : Site O U) (m : Message) : Prop where
  ticketRequest : ∀ r, m.body = .ticketRequest r → m.mtype = msgTypeTicketRequest
  ticketResponse : ∀ r, m.body = .ticketResponse r → r.generatorPid = site.ticketPid
  serviceRequest : ∀ r, m.body = .serviceRequest r →
    m.mtype ≠ msgTypeTicketRequest ∧ ∀ u, m.mtype ≠ site.userPid u
  serviceDone : ∀ d, m.body = .serviceDone d → ∃ o, d.senderPid = site.operatorPid o

structure Letters (site : Site O U) (w : World O U) : Prop where
  table : TablePresent site w
  read : ∀ u s k pid, (w.users u).phase.addressed = some (s, k, pid) →
    pid = 0 ∨ ∃ o, pid = site.operatorPid o
  tickets : ∀ u x, (w.users u).phase.session = some x → 0 ≤ x.ticket
  typed : ∀ m ∈ w.sh.queue, WellTyped site m
  conserved : ∀ l, w.inFlight l = w.awaited site l

theorem awaitedBy_of_awaited {site : Site O U} {w : World O U} {l : Letter}
    (h : 0 < w.awaited site l) : ∃ u, w.awaitedBy site u = some l ∧ l.pid = site.userPid u := by
  obtain ⟨u, hawaited⟩ := exists_of_total_pos h
  refine ⟨u, hawaited, ?_⟩
  simp only [World.awaitedBy] at hawaited
  cases hphase : (w.users u).phase <;> rw [hphase] at hawaited <;> cases hawaited <;> rfl

omit [Fintype U] in
theorem inFlight_of_mem {w : World O U} {m : Message} (h : m ∈ w.sh.queue) :
    0 < w.inFlight m.letter := by
  have hcount : 0 < queued w.sh.queue m.letter := tally_pos h rfl
  simp only [World.inFlight]
  omega

/-- A letter in flight is waited for by the user it is on its way to. -/
theorem Letters.awaitedBy_of_inFlight {site : Site O U} {w : World O U} (h : Letters site w)
    {l : Letter} (hl : 0 < w.inFlight l) :
    ∃ u, w.awaitedBy site u = some l ∧ l.pid = site.userPid u :=
  awaitedBy_of_awaited (h.conserved l ▸ hl)

theorem Letters.letter_of_user {site : Site O U} (hpids : PidsApart site) {w : World O U}
    (h : Letters site w) {m : Message} (hm : m ∈ w.sh.queue) {u : U}
    (ht : m.mtype = site.userPid u) : w.awaitedBy site u = some m.letter := by
  have htyped := h.typed m hm
  have hpid : m.letter.pid = m.mtype := by
    cases hbody : m.body with
    | ticketRequest r =>
      exact absurd (ht.symm.trans (htyped.ticketRequest r hbody)) (hpids.dispenser u)
    | ticketResponse r => simp [Message.letter, hbody, Letter.pid]
    | serviceRequest r => exact absurd ht ((htyped.serviceRequest r hbody).2 u)
    | serviceDone d => simp [Message.letter, hbody, Letter.pid]
  obtain ⟨v, hv, hvpid⟩ := h.awaitedBy_of_inFlight (inFlight_of_mem hm)
  have huv : v = u := site.userPid_injective (hvpid.symm.trans (hpid.trans ht))
  rwa [huv] at hv

theorem Letters.ticketRequest_of_type {site : Site O U} (hpids : PidsApart site) {w : World O U}
    (h : Letters site w) {m : Message} (hm : m ∈ w.sh.queue)
    (ht : m.mtype = msgTypeTicketRequest) : ∃ r, m.body = .ticketRequest r := by
  have hreply (hletter : m.letter.pid = m.mtype) : False := by
    obtain ⟨u, -, hu⟩ := h.awaitedBy_of_inFlight (inFlight_of_mem hm)
    exact hpids.dispenser u (hu.symm.trans (hletter.trans ht))
  cases hbody : m.body with
  | ticketRequest r => exact ⟨r, rfl⟩
  | ticketResponse r => exact (hreply (by simp [Message.letter, hbody, Letter.pid])).elim
  | serviceRequest r => exact absurd ht ((h.typed m hm).serviceRequest r hbody).1
  | serviceDone d => exact (hreply (by simp [Message.letter, hbody, Letter.pid])).elim

theorem Letters.serviceRequest_of_type {site : Site O U} (hpids : PidsApart site) {w : World O U}
    (h : Letters site w) {m : Message} (hm : m ∈ w.sh.queue) {o : O}
    (ht : m.mtype = serviceRequestType (site.operatorPid o)) :
    ∃ r, m.body = .serviceRequest r ∧ ¬ Operatore.Ignored r := by
  have hreply (hletter : m.letter.pid = m.mtype) : False := by
    obtain ⟨u, -, hu⟩ := h.awaitedBy_of_inFlight (inFlight_of_mem hm)
    exact hpids.operator u o (hu.symm.trans (hletter.trans ht))
  cases hbody : m.body with
  | ticketRequest r =>
    have htype := ht.symm.trans ((h.typed m hm).ticketRequest r hbody)
    simp only [serviceRequestType, msgTypeTicketRequest] at htype
    omega
  | ticketResponse r => exact (hreply (by simp [Message.letter, hbody, Letter.pid])).elim
  | serviceRequest r =>
    refine ⟨r, rfl, ?_⟩
    obtain ⟨u, hu, -⟩ := h.awaitedBy_of_inFlight (inFlight_of_mem hm)
    have hletter : m.letter = .service r.senderPid r.ticketNumber := by
      simp [Message.letter, hbody]
    rw [hletter] at hu
    obtain ⟨x, k, start, hphase, hticket⟩ := awaited_eq_service hu
    have hnonneg := h.tickets u x (by rw [hphase]; rfl)
    simp only [Operatore.Ignored]
    omega
  | serviceDone d => exact (hreply (by simp [Message.letter, hbody, Letter.pid])).elim

variable [DecidableEq O] [DecidableEq U]

theorem awaited_user (site : Site O U) (w : World O U) (u : U) (b : Utente.Act) (l : Letter) :
    (w.next site (.user u b)).awaited site l + hit (w.awaitedBy site u) l =
      w.awaited site l +
        hit ((Utente.next site u (w.users u) w.sh b).1.phase.awaited (site.userPid u)) l := by
  have hnext : (w.next site (.user u b)).awaitedBy site = Function.update (w.awaitedBy site) u
      ((Utente.next site u (w.users u) w.sh b).1.phase.awaited (site.userPid u)) :=
    users_next (fun v l => l.phase.awaited (site.userPid v)) site w u b
  rw [World.awaited, hnext]
  exact total_update (w.awaitedBy site) u _ l

theorem heldBy_oper (site : Site O U) (w : World O U) (o : O) (b : Operatore.Act) (l : Letter) :
    total (w.next site (.oper o b)).heldBy l + hit (w.heldBy o) l =
      total w.heldBy l + hit (Operatore.next site o (w.opers o) w.sh b).1.phase.held l := by
  have hnext : (w.next site (.oper o b)).heldBy = Function.update w.heldBy o
      (Operatore.next site o (w.opers o) w.sh b).1.phase.held :=
    opers_next (fun _ l => l.phase.held) site w o b
  rw [hnext]
  exact total_update w.heldBy o _ l

theorem awaited_director (site : Site O U) {w : World O U} {b : Direttore.Act U}
    (ha : w.Enabled site (.director b)) (l : Letter) :
    (w.next site (.director b)).awaited site l = w.awaited site l := by
  have hnext : (w.next site (.director b)).awaitedBy site = w.awaitedBy site :=
    funext (users_director (fun u p => p.awaited (site.userPid u)) (fun _ => rfl) site ha.2.2)
  simp only [World.awaited, hnext]

omit [DecidableEq O] [DecidableEq U] in
theorem awaited_keep (site : Site O U) {w : World O U} {u : U} {b : Utente.Act}
    (he : Utente.Enabled site u (w.users u) w.sh b) (hrel : Reliable (.user u b : Act O U))
    (hsent : sentBy site w (.user u b) = none)
    (hreceived : receivedBy (.user u b : Act O U) = none) :
    (Utente.next site u (w.users u) w.sh b).1.phase.awaited (site.userPid u) =
      w.awaitedBy site u := by
  cases b
  case sendTicket s => cases hsent
  case sendRequest x k op start => cases hsent
  case receiveTicket s m => cases hreceived
  case receiveDone x k start m d => cases hreceived
  case sendTicketFails s => exact hrel.elim
  case receiveTicketFails s => exact hrel.elim
  case sendRequestFails x k op start => exact hrel.elim
  case receiveDoneFails x k start => exact hrel.elim
  case sleepOn walkIn => rfl
  all_goals
    simp only [Utente.Enabled] at he
    simp only [World.awaitedBy, Utente.next]
    grind [Utente.Phase.awaited]

omit [DecidableEq O] [DecidableEq U] in
theorem held_keep (site : Site O U) {w : World O U} {o : O} {b : Operatore.Act}
    (he : Operatore.Enabled site o (w.opers o) w.sh b) (hrel : Reliable (.oper o b : Act O U))
    (hsent : sentBy site w (.oper o b) = none)
    (hreceived : receivedBy (.oper o b : Act O U) = none) :
    (Operatore.next site o (w.opers o) w.sh b).1.phase.held = w.heldBy o := by
  cases b
  case receive k m => cases hreceived
  case reply k q time => cases hsent
  case receiveFails k => exact hrel.elim
  case replyFails k q time => exact hrel.elim
  all_goals
    simp only [Operatore.Enabled] at he
    simp only [World.heldBy, Operatore.next]
    grind [Operatore.Phase.held]

theorem Letters.conserved_user {site : Site O U} (hpids : PidsApart site) {w : World O U}
    (h : Letters site w) {u : U} {b : Utente.Act} (ha : w.Enabled site (.user u b))
    (hrel : Reliable (.user u b : Act O U)) (l : Letter) :
    (w.next site (.user u b)).inFlight l = (w.next site (.user u b)).awaited site l := by
  have hold := h.conserved l
  have hawaited := awaited_user site w u b l
  have hstep := queue_step site ha
  have hheld : total (w.next site (.user u b)).heldBy l = total w.heldBy l := rfl
  have hticket : hit (w.next site (.user u b)).ticket.phase.held l = hit w.ticket.phase.held l :=
    rfl
  simp only [World.inFlight] at hold ⊢
  obtain ⟨-, he⟩ := ha
  have hquiet (hsent : sentBy site w (.user u b) = none)
      (hreceived : receivedBy (.user u b : Act O U) = none) :
      queued (w.next site (.user u b)).sh.queue l +
          hit (w.next site (.user u b)).ticket.phase.held l +
        total (w.next site (.user u b)).heldBy l =
      (w.next site (.user u b)).awaited site l := by
    rw [hreceived, hsent] at hstep
    rw [awaited_keep site he hrel hsent hreceived] at hawaited
    simp only [Option.toList, List.append_nil] at hstep
    rw [hstep]
    omega
  cases b
  case sendTicket s =>
    have he : (w.users u).phase = .sendTicket s := he
    have hq : (w.next site (.user u (.sendTicket s))).sh.queue = w.sh.queue ++ [_] := hstep
    rw [hq, queued_send]
    rw [World.awaitedBy, he] at hawaited
    simp only [Utente.next, Utente.Phase.awaited, hit_none] at hawaited
    simp only [Message.letter]
    omega
  case sendRequest x k op start =>
    have he : (w.users u).phase = .sendRequest x k op start := he
    have hq : (w.next site (.user u (.sendRequest x k op start))).sh.queue =
      w.sh.queue ++ [_] := hstep
    rw [hq, queued_send]
    rw [World.awaitedBy, he] at hawaited
    simp only [Utente.next, Utente.Phase.awaited, hit_none] at hawaited
    simp only [Message.letter]
    omega
  case receiveTicket s m =>
    obtain ⟨hfirst, hq⟩ := hstep
    have hletter := h.letter_of_user hpids (firstOfType_eq_some hfirst).1
      (firstOfType_eq_some he.2.1).2
    have hreceived := queued_receive hfirst l
    have hnone : (Utente.next site u (w.users u) w.sh (.receiveTicket s m)).1.phase.awaited
        (site.userPid u) = none := by
      simp only [Utente.next]
      split <;> rfl
    rw [hletter, hnone, hit_none] at hawaited
    rw [hq]
    omega
  case receiveDone x k start m d =>
    obtain ⟨hfirst, hq⟩ := hstep
    have hletter := h.letter_of_user hpids (firstOfType_eq_some hfirst).1
      (firstOfType_eq_some he.2.1).2
    have hreceived := queued_receive hfirst l
    have hnone : (Utente.next site u (w.users u) w.sh (.receiveDone x k start m d)).1.phase.awaited
        (site.userPid u) = none := by
      simp only [Utente.next]
      split <;> rfl
    rw [hletter, hnone, hit_none] at hawaited
    rw [hq]
    omega
  case sendTicketFails s => exact hrel.elim
  case receiveTicketFails s => exact hrel.elim
  case sendRequestFails x k op start => exact hrel.elim
  case receiveDoneFails x k start => exact hrel.elim
  all_goals exact hquiet rfl rfl

theorem Letters.conserved_oper {site : Site O U} (hpids : PidsApart site) {w : World O U}
    (h : Letters site w) {o : O} {b : Operatore.Act} (ha : w.Enabled site (.oper o b))
    (hrel : Reliable (.oper o b : Act O U)) (l : Letter) :
    (w.next site (.oper o b)).inFlight l = (w.next site (.oper o b)).awaited site l := by
  have hold := h.conserved l
  have hheld := heldBy_oper site w o b l
  have hstep := queue_step site ha
  have hawaited : (w.next site (.oper o b)).awaited site l = w.awaited site l := rfl
  have hticket : hit (w.next site (.oper o b)).ticket.phase.held l = hit w.ticket.phase.held l :=
    rfl
  simp only [World.inFlight] at hold ⊢
  obtain ⟨-, he⟩ := ha
  have hquiet (hsent : sentBy site w (.oper o b) = none)
      (hreceived : receivedBy (.oper o b : Act O U) = none) :
      queued (w.next site (.oper o b)).sh.queue l +
          hit (w.next site (.oper o b)).ticket.phase.held l +
        total (w.next site (.oper o b)).heldBy l =
      (w.next site (.oper o b)).awaited site l := by
    rw [hreceived, hsent] at hstep
    rw [held_keep site he hrel hsent hreceived] at hheld
    simp only [Option.toList, List.append_nil] at hstep
    rw [hstep]
    omega
  cases b
  case receive k m =>
    obtain ⟨hfirst, hq⟩ := hstep
    have hreceived := queued_receive hfirst l
    obtain ⟨r, hbody, hignored⟩ := h.serviceRequest_of_type hpids
      (firstOfType_eq_some hfirst).1 (firstOfType_eq_some he.2.1).2
    have hread : Operatore.readRequest m = r := by simp [Operatore.readRequest, Body.words, hbody]
    have hletter : (Operatore.next site o (w.opers o) w.sh (.receive k m)).1.phase.held =
        some m.letter := by
      simp [Operatore.next, hread, hignored, Operatore.Phase.held, Message.letter, hbody]
    have hnone : w.heldBy o = none := by rw [World.heldBy, he.1]; rfl
    rw [hletter, hnone, hit_none] at hheld
    rw [hq]
    omega
  case reply k q time =>
    have he : (w.opers o).phase = .reply k q time := he
    have hq : (w.next site (.oper o (.reply k q time))).sh.queue = w.sh.queue ++ [_] := hstep
    rw [hq, queued_send]
    rw [World.heldBy, he] at hheld
    simp only [Operatore.next, Operatore.Phase.held, hit_none] at hheld
    simp only [Message.letter]
    omega
  case receiveFails k => exact hrel.elim
  case replyFails k q time => exact hrel.elim
  all_goals exact hquiet rfl rfl

theorem Letters.conserved_ticket {site : Site O U} (hpids : PidsApart site) {w : World O U}
    (h : Letters site w) {b : ErogatoreTicket.Act} (ha : w.Enabled site (.ticket b))
    (hrel : Reliable (.ticket b : Act O U)) (l : Letter) :
    (w.next site (.ticket b)).inFlight l = (w.next site (.ticket b)).awaited site l := by
  have hold := h.conserved l
  have hstep := queue_step site ha
  have hawaited : (w.next site (.ticket b)).awaited site l = w.awaited site l := rfl
  have hheld : total (w.next site (.ticket b)).heldBy l = total w.heldBy l := rfl
  simp only [World.inFlight] at hold ⊢
  cases b
  case receive m =>
    obtain ⟨hfirst, hq⟩ := hstep
    have hreceived := queued_receive hfirst l
    obtain ⟨r, hbody⟩ := h.ticketRequest_of_type hpids
      (firstOfType_eq_some hfirst).1 (firstOfType_eq_some ha.2.1).2
    have hletter : hit (w.next site (.ticket (.receive m))).ticket.phase.held l =
        hit (some m.letter) l := by
      simp [World.next, ErogatoreTicket.next, ErogatoreTicket.Phase.held, Message.letter, hbody,
        Body.words]
    have hidle : hit w.ticket.phase.held l = 0 := by
      rw [ha.1]
      exact hit_none l
    rw [hq]
    omega
  case reply pid =>
    have he : w.ticket.phase = .holding pid := ha
    have hq : (w.next site (.ticket (.reply pid))).sh.queue = w.sh.queue ++ [_] := hstep
    have hsent : hit (w.next site (.ticket (.reply pid))).ticket.phase.held l = 0 := hit_none l
    rw [he] at hold
    simp only [ErogatoreTicket.Phase.held] at hold
    rw [hq, queued_send]
    simp only [Message.letter]
    omega
  case count =>
    have he : w.ticket.phase = .sent := ha
    have hsent : hit (w.next site (.ticket .count)).ticket.phase.held l = 0 := hit_none l
    have hq : (w.next site (.ticket .count)).sh.queue = w.sh.queue := rfl
    rw [he] at hold
    simp only [ErogatoreTicket.Phase.held, hit_none] at hold
    rw [hq]
    omega
  case interrupted => exact hrel.elim
  case receiveFails => exact hrel.elim
  case replyFails pid => exact hrel.elim

theorem session_step (site : Site O U) {w : World O U} {a : Act O U} (ha : w.Enabled site a)
    {u : U} {x : Utente.Session} (h : ((w.next site a).users u).phase.session = some x) :
    (w.users u).phase.session = some x ∨
      ∃ s m, a = .user u (.receiveTicket s m) ∧ x = ⟨s, Utente.readTicket m⟩ ∧ 0 ≤ x.ticket := by
  rcases user_step site ha u with hu | ⟨b, rfl, he, hu⟩ | ⟨n, rfl, -, hu⟩
  · rw [hu] at h
    exact Or.inl h
  · rw [hu] at h
    cases b
    case receiveTicket s m =>
      right
      simp only [Utente.next] at h
      by_cases hneg : Utente.readTicket m < 0
      · rw [if_pos hneg] at h
        cases h
      · rw [if_neg hneg] at h
        cases h
        exact ⟨s, m, rfl, rfl, not_lt.mp hneg⟩
    case sleepOn walkIn => exact Or.inl h
    all_goals
      left
      simp only [Utente.Enabled] at he
      simp only [Utente.next] at h
      grind [Utente.Phase.session]
  · rw [hu] at h
    cases h

theorem Letters.typed_step {site : Site O U} (hpids : PidsApart site) {w : World O U}
    (h : Letters site w) {a : Act O U} (ha : w.Enabled site a) (hnot : NotToUser site a) :
    ∀ m ∈ (w.next site a).sh.queue, WellTyped site m := by
  intro m hm
  rcases mem_queue_step site ha hm with hold | hsent
  · exact h.typed m hold
  · cases a with
    | user u b =>
      cases b <;> simp only [sentBy, reduceCtorEq, Option.some.injEq] at hsent
      case sendTicket s =>
        subst hsent
        exact ⟨fun _ _ => rfl, fun _ h => (by cases h), fun _ h => (by cases h),
          fun _ h => (by cases h)⟩
      case sendRequest x k op start =>
        have he : (w.users u).phase = .sendRequest x k op start := ha.2
        subst hsent
        refine ⟨fun _ h => (by cases h), fun _ h => (by cases h), ?_, fun _ h => (by cases h)⟩
        intro r _
        refine ⟨by simp only [serviceRequestType, msgTypeTicketRequest]; omega, fun v => ?_⟩
        rcases h.read u x.service k op (by rw [he]; rfl) with rfl | ⟨o, rfl⟩
        · exact (hnot rfl v).symm
        · exact (hpids.operator v o).symm
    | oper o b =>
      cases b <;> simp only [sentBy, reduceCtorEq, Option.some.injEq] at hsent
      case reply k q time =>
        subst hsent
        refine ⟨fun _ h => (by cases h), fun _ h => (by cases h), fun _ h => (by cases h), ?_⟩
        intro d hd
        cases hd
        exact ⟨o, rfl⟩
    | ticket b =>
      cases b <;> simp only [sentBy, reduceCtorEq, Option.some.injEq] at hsent
      case reply pid =>
        subst hsent
        refine ⟨fun _ h => (by cases h), ?_, fun _ h => (by cases h), fun _ h => (by cases h)⟩
        intro r hr
        cases hr
        rfl
    | director b => cases hsent
    | «section» => cases hsent

theorem Letters.step {site : Site O U} (hpids : PidsApart site) {w : World O U}
    (h : Letters site w) {a : Act O U} (ha : w.Enabled site a) (hrel : Reliable a)
    (hnot : NotToUser site a) : Letters site (w.next site a) where
  table := h.table.step ha
  read := by
    intro u s k pid hu
    rcases addressed_step site ha hu with hold | ⟨x, -, -, -, rfl⟩
    · exact h.read u s k pid hold
    · exact h.table.operatorProcess k
  tickets := by
    intro u x hu
    rcases session_step site ha hu with hold | ⟨s, m, -, -, hnonneg⟩
    · exact h.tickets u x hold
    · exact hnonneg
  typed := h.typed_step hpids ha hnot
  conserved := by
    intro l
    cases a with
    | user u b => exact h.conserved_user hpids ha hrel l
    | oper o b => exact h.conserved_oper hpids ha hrel l
    | ticket b => exact h.conserved_ticket hpids ha hrel l
    | director b =>
      have hstep := queue_step site ha
      have hq : (w.next site (.director b)).sh.queue = w.sh.queue := by
        cases b <;> rfl
      have hflight : (w.next site (.director b)).inFlight l = w.inFlight l := by
        simp only [World.inFlight, hq]
        rfl
      rw [hflight, awaited_director site ha, h.conserved l]
    | «section» => exact h.conserved l

omit [DecidableEq O] in
theorem letters_init (site : Site O U) : Letters site (World.init site) where
  table := tablePresent_init site
  read := by
    intro u s k pid hu
    by_cases h : u ∈ site.initialUsers <;> simp [World.init, h, Utente.Phase.addressed] at hu
  tickets := by
    intro u x hu
    by_cases h : u ∈ site.initialUsers <;> simp [World.init, h, Utente.Phase.session] at hu
  typed := by
    intro m hm
    cases hm
  conserved := by
    intro l
    have hawaited (u : U) : (World.init site).awaitedBy site u ≠ some l := by
      by_cases h : u ∈ site.initialUsers <;>
        simp [World.awaitedBy, World.init, h, Utente.Phase.awaited]
    have hheld (o : O) : (World.init site).heldBy o ≠ some l := by
      simp [World.heldBy, World.init, Operatore.Phase.held]
    rw [World.inFlight, World.awaited, total_eq_zero hawaited, total_eq_zero hheld]
    simp [World.init, Shared.init, queued, tally, ErogatoreTicket.Phase.held]

/-- When no call fails and no request to nobody reaches a user, the letters on their way are
throughout the ones that are awaited. -/
theorem letters_run (site : Site O U) (hpids : PidsApart site) (as : List (Act O U))
    (h : ((poste site).restrict fun _ a => Reliable a ∧ NotToUser site a).Runs
      (World.init site) as) : Letters site ((poste site).after (World.init site) as) :=
  ((poste site).restrict fun _ a => Reliable a ∧ NotToUser site a).invariant
    (letters_init site) (fun _ _ hw ha => hw.step hpids ha.1 ha.2.1 ha.2.2) as h

end PosteItaliane
