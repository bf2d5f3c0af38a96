import PosteItaliane.Model.NewUsers
import PosteItaliane.Proofs.Replies

/-!
# Message types as addresses

Fixed numbers, process ids and process ids plus 30000 are types of messages on the same
queue. The tables of this module say who listens on which type and who sends what to whom.
Each type has one listener, and every message reaches the process it is meant for, exactly
when four kinds of coincidence are excluded.
-/

namespace PosteItaliane

open Framework Framework.Mailbox

/-- The processes that use a message queue. -/
inductive Party (O U N : Type) where
  | direttore
  | erogatore
  | operatore (o : O)
  | utente (u : U)
  | newUsers (c : N)
  deriving DecidableEq

inductive MsgQueue where
  | ticket
  | addUsers
  deriving DecidableEq

variable {O U N : Type} [Fintype O] [Fintype U] [DecidableEq O] [DecidableEq U] [DecidableEq N]

/-- The type a process gives to `mq_receive`. -/
def Listens (site : Site O U) (clients : Clients N) (q : MsgQueue) (t : ℕ) : Party O U N → Prop
  | .direttore => q = .addUsers ∧ t = msgTypeAddUsersRequest
  | .erogatore => q = .ticket ∧ t = msgTypeTicketRequest
  | .operatore o => q = .ticket ∧ t = serviceRequestType (site.operatorPid o)
  | .utente u => q = .ticket ∧ t = site.userPid u
  | .newUsers c => q = .addUsers ∧ t = clients.pid c

/-- Who gives which type to `mq_send`, and for whom the message is. A user that finds no
operator at its seat any more sends its request to the process id 0. -/
inductive Sends (site : Site O U) (clients : Clients N) :
    Party O U N → MsgQueue → ℕ → Option (Party O U N) → Prop where
  | ticketRequest (u : U) :
    Sends site clients (.utente u) .ticket msgTypeTicketRequest (some .erogatore)
  | serviceRequest (u : U) (o : O) : Sends site clients (.utente u) .ticket
      (serviceRequestType (site.operatorPid o)) (some (.operatore o))
  | requestToNobody (u : U) : Sends site clients (.utente u) .ticket (serviceRequestType 0) none
  | ticketResponse (u : U) :
    Sends site clients .erogatore .ticket (site.userPid u) (some (.utente u))
  | serviceDone (o : O) (u : U) :
    Sends site clients (.operatore o) .ticket (site.userPid u) (some (.utente u))
  | newUsersRequest (c : N) :
    Sends site clients (.newUsers c) .addUsers msgTypeAddUsersRequest (some .direttore)
  | newUsersDone (c : N) :
    Sends site clients .direttore .addUsers (clients.pid c) (some (.newUsers c))

def Act.party : Act O U → Party O U N
  | .oper o _ => .operatore o
  | .user u _ => .utente u
  | .ticket _ => .erogatore
  | .director _ => .direttore
  | .section => .direttore

def AddUsersAct.party : AddUsersAct N → Party O U N
  | .client c _ => .newUsers c
  | .director _ => .direttore

/-- The message a step at the add-users queue receives. -/
def AddUsersAct.received : AddUsersAct N → Option AddUsersMessage
  | .client _ (.receive m) => some m
  | .director (.receive m _) => some m
  | _ => none

/-- The director's receive does not fail. -/
def AddUsersAct.Succeeds : AddUsersAct N → Prop
  | .director (.receiveFails _) => False
  | _ => True

/-- A message is of the kind and type that are for the process. -/
def Message.MeantFor (site : Site O U) (m : Message) : Party O U N → Prop
  | .erogatore => m.mtype = msgTypeTicketRequest ∧ ∃ r, m.body = .ticketRequest r
  | .operatore o => m.mtype = serviceRequestType (site.operatorPid o) ∧
      ∃ r, m.body = .serviceRequest r
  | .utente u => m.mtype = site.userPid u ∧ m.body.isRequest = false
  | _ => False

def AddUsersMessage.MeantFor (clients : Clients N) (m : AddUsersMessage) : Party O U N → Prop
  | .direttore => m.mtype = msgTypeAddUsersRequest ∧ ∃ r, m.body = .request r
  | .newUsers c => m.mtype = clients.pid c ∧ ∃ d, m.body = .done d
  | _ => False

/-- Nobody listens on the type of another process, every message has its receiver as the
only listener, and in every run every message is received by the process it is for. -/
structure Unambiguous (site : Site O U) (clients : Clients N) : Prop where
  listener : ∀ q t (P Q : Party O U N),
    Listens site clients q t P → Listens site clients q t Q → P = Q
  intended : ∀ q t (P Q : Party O U N) R,
    Sends site clients P q t R → Listens site clients q t Q → R = some Q
  delivered : ∀ as a, (poste site).Runs (World.init site) (as ++ [a]) →
    ∀ m, receivedBy a = some m → m.MeantFor site (a.party : Party O U N)
  deliveredAddUsers : ∀ as a,
    ((addUsers clients).restrict fun _ a => a.Succeeds).Runs AddUsers.init (as ++ [a]) →
    ∀ m, a.received = some m → m.MeantFor clients (a.party : Party O U N)

/-- No user has a process id that is the type of a request, and no client has the process id
that is the type of requests for users. -/
structure TypesApart (site : Site O U) (clients : Clients N) : Prop extends PidsApart site where
  nobody : ∀ u, site.userPid u ≠ serviceRequestType 0
  director : ∀ c, clients.pid c ≠ msgTypeAddUsersRequest

omit [DecidableEq O] [DecidableEq U] [DecidableEq N] in
theorem listens_of_receivedBy {site : Site O U} (clients : Clients N) {w : World O U}
    {a : Act O U} (ha : w.Enabled site a) {m : Message} (hm : receivedBy a = some m) :
    Listens site clients .ticket m.mtype (a.party : Party O U N) := by
  cases a with
  | user u b =>
    cases b <;> simp only [receivedBy, reduceCtorEq, Option.some.injEq] at hm <;> subst hm
    case receiveTicket s m => exact ⟨rfl, (firstOfType_eq_some ha.2.2.1).2⟩
    case receiveDone x k start m d => exact ⟨rfl, (firstOfType_eq_some ha.2.2.1).2⟩
  | oper o b =>
    cases b <;> simp only [receivedBy, reduceCtorEq, Option.some.injEq] at hm
    case receive k m =>
      subst hm
      exact ⟨rfl, (firstOfType_eq_some ha.2.2.1).2⟩
  | ticket b =>
    cases b <;> simp only [receivedBy, reduceCtorEq, Option.some.injEq] at hm
    case receive m =>
      subst hm
      exact ⟨rfl, (firstOfType_eq_some ha.2.1).2⟩
  | director b => cases hm
  | «section» => cases hm

omit [DecidableEq O] [DecidableEq N] in
/-- On the ticket queue a process can receive the types it listens on, and no others. -/
theorem receives_iff_listens (site : Site O U) (clients : Clients N) (t : ℕ)
    (P : Party O U N) :
    (∃ (w : World O U) (a : Act O U) (m : Message), w.Enabled site a ∧ a.party = P ∧
      receivedBy a = some m ∧ m.mtype = t) ↔ Listens site clients .ticket t P := by
  constructor
  · rintro ⟨w, a, m, ha, rfl, hm, rfl⟩
    exact listens_of_receivedBy clients ha hm
  · intro h
    have hfirst (m : Message) : firstOfType [m] m.mtype = some m := by simp [firstOfType]
    cases P with
    | direttore => cases h.1
    | newUsers c => cases h.1
    | erogatore =>
      obtain ⟨-, rfl⟩ := h
      let m : Message := ⟨msgTypeTicketRequest, .ticketRequest ⟨0, 0⟩⟩
      refine ⟨{ World.init site with sh := { Shared.init with queue := [m] } },
        .ticket (.receive m), m, ⟨rfl, hfirst m, ?_⟩, rfl, rfl, rfl⟩
      simp [m, Body.size]
    | operatore o =>
      obtain ⟨-, rfl⟩ := h
      let m : Message := ⟨serviceRequestType (site.operatorPid o), .serviceRequest ⟨0, 0⟩⟩
      refine ⟨{ World.init site with
        opers := fun _ => ⟨.receive 0, 0⟩
        sh := { Shared.init with queue := [m] } },
        .oper o (.receive 0 m), m, ⟨?_, rfl, hfirst m, ?_⟩, rfl, rfl, rfl⟩
      · simp [Shared.init, Monitor.inside]
      · simp [m, Body.size]
    | utente u =>
      obtain ⟨-, rfl⟩ := h
      let m : Message := ⟨site.userPid u, .ticketResponse ⟨0, 0⟩⟩
      refine ⟨{ World.init site with
        users := fun _ => ⟨.awaitTicket 0, false, []⟩
        sh := { Shared.init with queue := [m] } },
        .user u (.receiveTicket 0 m), m, ⟨?_, rfl, hfirst m, ?_⟩, rfl, rfl, rfl⟩
      · simp [Shared.init, Monitor.inside]
      · simp [m, Body.size]

omit [DecidableEq O] [DecidableEq U] [DecidableEq N] in
theorem listens_of_received (clients : Clients N) (site : Site O U) {s : AddUsers N}
    {a : AddUsersAct N} (ha : s.Enabled clients a) {m : AddUsersMessage}
    (hm : a.received = some m) :
    m ∈ s.queue ∧ Listens site clients .addUsers m.mtype (a.party : Party O U N) := by
  have hfind {t : ℕ} (h : firstAddUsers s.queue t = some m) : m ∈ s.queue ∧ m.mtype = t := by
    have hp := List.find?_some h
    exact ⟨List.mem_of_find?_eq_some h, by simpa using hp⟩
  cases a with
  | client c b =>
    cases b <;> simp only [AddUsersAct.received, reduceCtorEq, Option.some.injEq] at hm
    case receive m' =>
      subst hm
      exact ⟨(hfind ha.2.1).1, rfl, (hfind ha.2.1).2⟩
  | director b =>
    cases b <;> simp only [AddUsersAct.received, reduceCtorEq, Option.some.injEq] at hm
    case receive m' r =>
      subst hm
      exact ⟨(hfind ha.2.1).1, rfl, (hfind ha.2.1).2⟩

omit [DecidableEq O] [DecidableEq U] [DecidableEq N] in
theorem TypesApart.listener {site : Site O U} {clients : Clients N} (h : TypesApart site clients)
    {q : MsgQueue} {t : ℕ} {P Q : Party O U N} (hP : Listens site clients q t P)
    (hQ : Listens site clients q t Q) : P = Q := by
  cases P with
  | direttore =>
    obtain ⟨rfl, rfl⟩ := hP
    cases Q with
    | direttore => rfl
    | newUsers c => exact absurd hQ.2.symm (h.director c)
    | erogatore => cases hQ.1
    | operatore o => cases hQ.1
    | utente u => cases hQ.1
  | newUsers c =>
    obtain ⟨rfl, rfl⟩ := hP
    cases Q with
    | direttore => exact absurd hQ.2 (h.director c)
    | newUsers d => exact congrArg Party.newUsers (clients.pid_injective hQ.2)
    | erogatore => cases hQ.1
    | operatore o => cases hQ.1
    | utente u => cases hQ.1
  | erogatore =>
    obtain ⟨rfl, rfl⟩ := hP
    cases Q with
    | direttore => cases hQ.1
    | newUsers c => cases hQ.1
    | erogatore => rfl
    | operatore o => exact absurd hQ.2.symm (serviceRequestType_ne _)
    | utente u => exact absurd hQ.2.symm (h.dispenser u)
  | operatore o =>
    obtain ⟨rfl, rfl⟩ := hP
    cases Q with
    | direttore => cases hQ.1
    | newUsers c => cases hQ.1
    | erogatore => exact absurd hQ.2 (serviceRequestType_ne _)
    | operatore p =>
      have hpid : site.operatorPid o = site.operatorPid p := Nat.add_left_cancel hQ.2
      exact congrArg Party.operatore (site.operatorPid_injective hpid)
    | utente u => exact absurd hQ.2.symm (h.operator u o)
  | utente u =>
    obtain ⟨rfl, rfl⟩ := hP
    cases Q with
    | direttore => cases hQ.1
    | newUsers c => cases hQ.1
    | erogatore => exact absurd hQ.2 (h.dispenser u)
    | operatore o => exact absurd hQ.2 (h.operator u o)
    | utente v => exact congrArg Party.utente (site.userPid_injective hQ.2)

omit [DecidableEq O] [DecidableEq U] [DecidableEq N] in
theorem Sends.listens {site : Site O U} {clients : Clients N} {P R : Party O U N} {q : MsgQueue}
    {t : ℕ} (h : Sends site clients P q t (some R)) : Listens site clients q t R := by
  cases h <;> exact ⟨rfl, rfl⟩

omit [DecidableEq O] [DecidableEq U] [DecidableEq N] in
theorem TypesApart.intended {site : Site O U} {clients : Clients N} (h : TypesApart site clients)
    {P Q : Party O U N} {q : MsgQueue} {t : ℕ} {R : Option (Party O U N)}
    (hsends : Sends site clients P q t R) (hQ : Listens site clients q t Q) : R = some Q := by
  cases R with
  | some R => exact congrArg some (h.listener hsends.listens hQ)
  | none =>
    cases hsends
    exfalso
    cases Q with
    | direttore => cases hQ.1
    | newUsers c => cases hQ.1
    | erogatore => exact serviceRequestType_ne 0 hQ.2
    | operatore o => exact (site.operatorPid_pos o).ne (Nat.add_left_cancel hQ.2)
    | utente u => exact h.nobody u hQ.2.symm

/-- The type of a message is the one its kind and its receiver call for. -/
def WellAddressed (site : Site O U) (m : Message) : Prop :=
  match m.body with
  | .ticketRequest r => m.mtype = msgTypeTicketRequest ∧ ∃ u, r.senderPid = site.userPid u
  | .ticketResponse _ => ∃ u, m.mtype = site.userPid u
  | .serviceRequest r => (m.mtype = serviceRequestType 0 ∨
      ∃ o, m.mtype = serviceRequestType (site.operatorPid o)) ∧ ∃ u, r.senderPid = site.userPid u
  | .serviceDone _ => ∃ u, m.mtype = site.userPid u

/-- Everybody that has to send knows a right address. -/
structure AddressesKnown (site : Site O U) (w : World O U) : Prop where
  table : TablePresent site w
  read : ∀ u s k pid, (w.users u).phase.addressed = some (s, k, pid) →
    pid = 0 ∨ ∃ o, pid = site.operatorPid o
  queue : ∀ m ∈ w.sh.queue, WellAddressed site m
  ticket : ∀ pid, w.ticket.phase = .holding pid → ∃ u, pid = site.userPid u
  oper : ∀ o l, w.heldBy o = some l → ∃ u, l.pid = site.userPid u

omit [DecidableEq O] [DecidableEq U] [DecidableEq N] in
theorem WellAddressed.meantFor {site : Site O U} {clients : Clients N}
    (h : TypesApart site clients) {m : Message} (hm : WellAddressed site m) {P : Party O U N}
    (hP : Listens site clients .ticket m.mtype P) : m.MeantFor site P := by
  cases P with
  | direttore => cases hP.1
  | newUsers c => cases hP.1
  | erogatore =>
    refine ⟨hP.2, ?_⟩
    cases hbody : m.body <;> simp only [WellAddressed, hbody] at hm
    case ticketRequest r => exact ⟨r, rfl⟩
    case ticketResponse r =>
      obtain ⟨u, hu⟩ := hm
      exact absurd (hu.symm.trans hP.2) (h.dispenser u)
    case serviceRequest r =>
      obtain ⟨hm | ⟨o, hm⟩, -⟩ := hm <;> exact absurd (hm.symm.trans hP.2) (serviceRequestType_ne _)
    case serviceDone d =>
      obtain ⟨u, hu⟩ := hm
      exact absurd (hu.symm.trans hP.2) (h.dispenser u)
  | operatore o =>
    refine ⟨hP.2, ?_⟩
    cases hbody : m.body <;> simp only [WellAddressed, hbody] at hm
    case ticketRequest r => exact absurd (hP.2.symm.trans hm.1) (serviceRequestType_ne _)
    case ticketResponse r =>
      obtain ⟨u, hu⟩ := hm
      exact absurd (hu.symm.trans hP.2) (h.operator u o)
    case serviceRequest r => exact ⟨r, rfl⟩
    case serviceDone d =>
      obtain ⟨u, hu⟩ := hm
      exact absurd (hu.symm.trans hP.2) (h.operator u o)
  | utente u =>
    refine ⟨hP.2, ?_⟩
    cases hbody : m.body <;> simp only [WellAddressed, hbody] at hm
    case ticketRequest r => exact absurd (hP.2.symm.trans hm.1) (h.dispenser u)
    case ticketResponse r => rfl
    case serviceRequest r =>
      obtain ⟨hm | ⟨o, hm⟩, -⟩ := hm
      · exact absurd (hP.2.symm.trans hm) (h.nobody u)
      · exact absurd (hP.2.symm.trans hm) (h.operator u o)
    case serviceDone d => rfl

omit [DecidableEq O] [DecidableEq U] [DecidableEq N] in
theorem AddressesKnown.sent {site : Site O U} (clients : Clients N) {w : World O U}
    (h : AddressesKnown site w) {a : Act O U} (ha : w.Enabled site a) {m : Message}
    (hm : sentBy site w a = some m) : WellAddressed site m ∧
      ∃ R, Sends site clients (a.party : Party O U N) .ticket m.mtype R := by
  cases a with
  | user u b =>
    cases b <;> simp only [sentBy, reduceCtorEq, Option.some.injEq] at hm <;> subst hm
    case sendTicket s => exact ⟨⟨rfl, u, rfl⟩, _, .ticketRequest u⟩
    case sendRequest x k op start =>
      have he : (w.users u).phase = .sendRequest x k op start := ha.2
      rcases h.read u x.service k op (by rw [he]; rfl) with rfl | ⟨o, rfl⟩
      · exact ⟨⟨Or.inl rfl, u, rfl⟩, _, .requestToNobody u⟩
      · exact ⟨⟨Or.inr ⟨o, rfl⟩, u, rfl⟩, _, .serviceRequest u o⟩
  | oper o b =>
    cases b <;> simp only [sentBy, reduceCtorEq, Option.some.injEq] at hm
    case reply k q time =>
      have he : (w.opers o).phase = .reply k q time := ha.2
      have hheld : w.heldBy o = some (.service q.senderPid q.ticketNumber) := by
        rw [World.heldBy, he]
        rfl
      obtain ⟨u, hu⟩ := h.oper o _ hheld
      have hpid : q.senderPid = site.userPid u := hu
      subst hm
      simp only [WellAddressed, hpid]
      exact ⟨⟨u, rfl⟩, _, .serviceDone o u⟩
  | ticket b =>
    cases b <;> simp only [sentBy, reduceCtorEq, Option.some.injEq] at hm
    case reply pid =>
      obtain ⟨u, rfl⟩ := h.ticket pid ha
      subst hm
      exact ⟨⟨u, rfl⟩, _, .ticketResponse u⟩
  | director b => cases hm
  | «section» => cases hm

omit [DecidableEq N] in
theorem AddressesKnown.meantFor {site : Site O U} {clients : Clients N}
    (hapart : TypesApart site clients) {w : World O U} (h : AddressesKnown site w) {a : Act O U}
    (ha : w.Enabled site a) {m : Message} (hm : receivedBy a = some m) :
    m.MeantFor site (a.party : Party O U N) := by
  have hqueue := queue_step site ha
  rw [hm] at hqueue
  exact (h.queue m (firstOfType_eq_some hqueue.1).1).meantFor hapart
    (listens_of_receivedBy clients ha hm)

omit [DecidableEq N] in
theorem AddressesKnown.ticket_step {site : Site O U} {clients : Clients N}
    (hapart : TypesApart site clients) {w : World O U} (h : AddressesKnown site w)
    {b : ErogatoreTicket.Act} (ha : w.Enabled site (.ticket b)) {pid : ℕ}
    (hpid : (w.next site (.ticket b)).ticket.phase = .holding pid) :
    ∃ u, pid = site.userPid u := by
  cases b with
  | receive m =>
    have hfor : m.MeantFor site (.erogatore : Party O U N) :=
      h.meantFor hapart (a := .ticket (.receive m)) ha rfl
    have hm := h.queue m (firstOfType_eq_some ha.2.1).1
    obtain ⟨-, r, hbody⟩ := hfor
    simp only [WellAddressed, hbody] at hm
    cases hpid
    rw [hbody]
    exact hm.2
  | interrupted => exact h.ticket pid hpid
  | _ => cases hpid

omit [DecidableEq N] in
theorem AddressesKnown.oper_step {site : Site O U} {clients : Clients N}
    (hapart : TypesApart site clients) {w : World O U} (h : AddressesKnown site w) {o : O}
    {b : Operatore.Act} (ha : w.Enabled site (.oper o b)) {l : Letter}
    (hl : (Operatore.next site o (w.opers o) w.sh b).1.phase.held = some l) :
    ∃ u, l.pid = site.userPid u := by
  cases b
  case receive k m =>
    have hfor : m.MeantFor site (.operatore o : Party O U N) :=
      h.meantFor hapart (a := .oper o (.receive k m)) ha rfl
    have hm := h.queue m (firstOfType_eq_some ha.2.2.1).1
    obtain ⟨-, r, hbody⟩ := hfor
    simp only [WellAddressed, hbody] at hm
    by_cases hignored : Operatore.Ignored (Operatore.readRequest m)
    · simp [Operatore.next, hignored, Operatore.Phase.held] at hl
    · simp only [Operatore.next, if_neg hignored, Operatore.Phase.held, Option.some.injEq] at hl
      subst hl
      simp only [Letter.pid, Operatore.readRequest, hbody, Body.words]
      exact hm.2
  all_goals
    apply h.oper o l
    obtain ⟨-, he⟩ := ha
    simp only [Operatore.Enabled] at he
    simp only [Operatore.next] at hl
    simp only [World.heldBy]
    grind [Operatore.Phase.held]

omit [DecidableEq N] in
theorem AddressesKnown.step {site : Site O U} {clients : Clients N}
    (hapart : TypesApart site clients) {w : World O U} (h : AddressesKnown site w) {a : Act O U}
    (ha : w.Enabled site a) : AddressesKnown site (w.next site a) where
  table := h.table.step ha
  read := by
    intro u s k pid hu
    rcases addressed_step site ha hu with hold | ⟨x, -, -, -, rfl⟩
    · exact h.read u s k pid hold
    · exact h.table.operatorProcess k
  queue := by
    intro m hm
    rcases mem_queue_step site ha hm with hold | hsent
    · exact h.queue m hold
    · exact (h.sent clients ha hsent).1
  ticket := by
    intro pid hpid
    cases a with
    | ticket b => exact h.ticket_step hapart ha hpid
    | _ => exact h.ticket pid hpid
  oper := by
    intro o l hl
    cases a with
    | oper p b =>
      by_cases hp : o = p
      · subst p
        refine h.oper_step hapart ha (l := l) ?_
        simpa [World.heldBy, World.next] using hl
      · refine h.oper o l ?_
        simpa [World.heldBy, World.next, hp] using hl
    | _ => exact h.oper o l hl

omit [DecidableEq O] in
theorem addressesKnown_init (site : Site O U) : AddressesKnown site (World.init site) where
  table := tablePresent_init site
  read := by
    intro u s k pid hu
    by_cases h : u ∈ site.initialUsers <;> simp [World.init, h, Utente.Phase.addressed] at hu
  queue := by
    intro m hm
    cases hm
  ticket := by
    intro pid hpid
    cases hpid
  oper := by
    intro o l hl
    cases hl

omit [DecidableEq N] in
theorem addressesKnown_run {site : Site O U} {clients : Clients N}
    (hapart : TypesApart site clients) (as : List (Act O U))
    (h : (poste site).Runs (World.init site) as) :
    AddressesKnown site ((poste site).after (World.init site) as) :=
  (poste site).invariant (addressesKnown_init site)
    (fun _ _ hw ha => hw.step hapart ha) as h

/-- Requests and answers on the add-users queue have their types. -/
structure AddUsersKnown (clients : Clients N) (s : AddUsers N) : Prop where
  request : ∀ m ∈ s.queue, ∀ r, m.body = .request r →
    m.mtype = msgTypeAddUsersRequest ∧ ∃ c, r.senderPid = clients.pid c
  done : ∀ m ∈ s.queue, ∀ d, m.body = .done d → ∃ c, m.mtype = clients.pid c
  replying : ∀ pid status, s.director = .replying pid status → ∃ c, pid = clients.pid c

omit [DecidableEq O] [DecidableEq U] [DecidableEq N] in
theorem AddUsersKnown.meantFor {site : Site O U} {clients : Clients N}
    (hapart : TypesApart site clients) {s : AddUsers N} (h : AddUsersKnown clients s)
    {a : AddUsersAct N} (ha : s.Enabled clients a) {m : AddUsersMessage}
    (hm : a.received = some m) : m.MeantFor clients (a.party : Party O U N) := by
  obtain ⟨hmem, hlistens⟩ := listens_of_received clients site ha hm
  cases hbody : m.body with
  | request r =>
    obtain ⟨htype, -⟩ := h.request m hmem r hbody
    cases a with
    | director b => exact ⟨htype, r, hbody⟩
    | client c b => exact absurd (hlistens.2.symm.trans htype) (hapart.director c)
  | done d =>
    obtain ⟨c, hc⟩ := h.done m hmem d hbody
    cases a with
    | director b => exact absurd (hc.symm.trans hlistens.2) (hapart.director c)
    | client c' b => exact ⟨hlistens.2, d, hbody⟩

omit [DecidableEq N] in
theorem AddUsersKnown.sent {clients : Clients N} {s : AddUsers N} (h : AddUsersKnown clients s)
    (m' : AddUsersMessage)
    (hrequest : ∀ r, m'.body = .request r →
      m'.mtype = msgTypeAddUsersRequest ∧ ∃ c, r.senderPid = clients.pid c)
    (hdone : ∀ d, m'.body = .done d → ∃ c, m'.mtype = clients.pid c) :
    (∀ m ∈ s.queue ++ [m'], ∀ r, m.body = .request r →
      m.mtype = msgTypeAddUsersRequest ∧ ∃ c, r.senderPid = clients.pid c) ∧
    ∀ m ∈ s.queue ++ [m'], ∀ d, m.body = .done d → ∃ c, m.mtype = clients.pid c := by
  constructor
  · intro m hm r hr
    rcases List.mem_append.mp hm with hold | hnew
    · exact h.request m hold r hr
    · rw [List.mem_singleton] at hnew
      subst hnew
      exact hrequest r hr
  · intro m hm d hd
    rcases List.mem_append.mp hm with hold | hnew
    · exact h.done m hold d hd
    · rw [List.mem_singleton] at hnew
      subst hnew
      exact hdone d hd

omit [DecidableEq O] [DecidableEq U] in
theorem AddUsersKnown.step {site : Site O U} {clients : Clients N}
    (hapart : TypesApart site clients) {s : AddUsers N} (h : AddUsersKnown clients s)
    {a : AddUsersAct N} (ha : s.Enabled clients a) (hsucceeds : a.Succeeds) :
    AddUsersKnown clients (s.next clients a) := by
  have hkeep (q : List AddUsersMessage) (hq : ∀ m ∈ q, m ∈ s.queue) :
      (∀ m ∈ q, ∀ r, m.body = .request r →
        m.mtype = msgTypeAddUsersRequest ∧ ∃ c, r.senderPid = clients.pid c) ∧
      ∀ m ∈ q, ∀ d, m.body = .done d → ∃ c, m.mtype = clients.pid c :=
    ⟨fun m hm => h.request m (hq m hm), fun m hm => h.done m (hq m hm)⟩
  cases a with
  | client c b =>
    cases b with
    | send =>
      obtain ⟨hrequest, hdone⟩ := h.sent
        ⟨msgTypeAddUsersRequest, .request ⟨clients.pid c, NewUsers.numNewUsers (clients.arg c)⟩⟩
        (by rintro r ⟨⟩; exact ⟨rfl, c, rfl⟩) (by rintro d ⟨⟩)
      exact ⟨hrequest, hdone, h.replying⟩
    | receive m =>
      obtain ⟨hrequest, hdone⟩ := hkeep _ fun m => mem_of_mem_rest
      exact ⟨hrequest, hdone, h.replying⟩
    | sendFails => exact ⟨h.request, h.done, h.replying⟩
    | interrupted => exact ⟨h.request, h.done, h.replying⟩
    | receiveFails success => exact ⟨h.request, h.done, h.replying⟩
  | director b =>
    cases b with
    | receive m r =>
      have hfor : m.MeantFor clients (.direttore : Party O U N) :=
        h.meantFor hapart (a := .director (.receive m r)) ha rfl
      have hmem := (listens_of_received clients site (a := .director (.receive m r)) ha rfl).1
      obtain ⟨-, r', hbody⟩ := hfor
      have hr : r' = r := by
        have hread := ha.2.2.2
        rw [hbody] at hread
        exact hread
      obtain ⟨-, c, hc⟩ := h.request m hmem r' hbody
      obtain ⟨hrequest, hdone⟩ := hkeep _ fun m => mem_of_mem_rest
      refine ⟨hrequest, hdone, ?_⟩
      intro pid status hpid
      cases hpid
      exact ⟨c, hr ▸ hc⟩
    | noMessage => exact ⟨h.request, h.done, fun _ _ hpid => by cases hpid⟩
    | receiveFails pid => exact hsucceeds.elim
    | reply pid status =>
      obtain ⟨hrequest, hdone⟩ := h.sent ⟨pid, .done ⟨status⟩⟩ (by rintro r ⟨⟩)
        fun d _ => h.replying pid status ha.1
      exact ⟨hrequest, hdone, fun _ _ hpid => by cases hpid⟩
    | replyFails pid status => exact ⟨h.request, h.done, fun _ _ hpid => by cases hpid⟩

omit [DecidableEq O] [DecidableEq U] in
theorem addUsersKnown_run {site : Site O U} {clients : Clients N}
    (hapart : TypesApart site clients) (as : List (AddUsersAct N))
    (h : ((addUsers clients).restrict fun _ a => a.Succeeds).Runs AddUsers.init as) :
    AddUsersKnown clients ((addUsers clients).after AddUsers.init as) := by
  have hinit : AddUsersKnown clients (AddUsers.init : AddUsers N) := by
    refine ⟨?_, ?_, fun _ _ hpid => by cases hpid⟩ <;>
    · intro m hm
      cases hm
  exact ((addUsers clients).restrict fun _ a => a.Succeeds).invariant hinit
    (fun _ _ hs ha => hs.step hapart ha.1 ha.2) as h

theorem Unambiguous.typesApart {site : Site O U} {clients : Clients N}
    (h : Unambiguous site clients) : TypesApart site clients := by
  refine ⟨⟨fun u hu => ?_, fun u o hu => ?_⟩, fun u hu => ?_, fun c hc => ?_⟩
  · cases h.listener .ticket msgTypeTicketRequest (.utente u) .erogatore ⟨rfl, hu.symm⟩ ⟨rfl, rfl⟩
  · cases h.listener .ticket _ (.utente u) (.operatore o) ⟨rfl, hu.symm⟩ ⟨rfl, rfl⟩
  · cases h.intended .ticket _ (.utente u) (.utente u) none (.requestToNobody u) ⟨rfl, hu.symm⟩
  · cases h.listener .addUsers msgTypeAddUsersRequest (.newUsers c) .direttore
      ⟨rfl, hc.symm⟩ ⟨rfl, rfl⟩

theorem TypesApart.unambiguous {site : Site O U} {clients : Clients N}
    (h : TypesApart site clients) : Unambiguous site clients := by
  refine ⟨fun _ _ _ _ => h.listener, fun _ _ _ _ _ => h.intended, ?_, ?_⟩
  · intro as a hruns m hm
    obtain ⟨has, ha⟩ := (GuardedSystem.runs_snoc _ _ as a).mp hruns
    exact (addressesKnown_run h as has).meantFor h ha hm
  · intro as a hruns m hm
    obtain ⟨has, ha⟩ := (GuardedSystem.runs_snoc _ _ as a).mp hruns
    exact (addUsersKnown_run h as has).meantFor h ha.1 hm

/-- Addressing is unambiguous if and only if no user has process id 1, 30000 or 30000 plus an
operator's, and no client has process id 10. -/
theorem unambiguous_iff (site : Site O U) (clients : Clients N) :
    Unambiguous site clients ↔ TypesApart site clients :=
  ⟨Unambiguous.typesApart, TypesApart.unambiguous⟩

/-- The director's process id is not a type of messages. -/
def Party.pid (site : Site O U) (clients : Clients N) : Party O U N → Option ℕ
  | .direttore => none
  | .erogatore => some site.ticketPid
  | .operatore o => some (site.operatorPid o)
  | .utente u => some (site.userPid u)
  | .newUsers c => some (clients.pid c)

/-- The process ids are distinct, positive and at most `2 ^ 22`. -/
def HandedOut (site : Site O U) (clients : Clients N) : Prop :=
  ∀ P : Party O U N, ∀ pid, P.pid site clients = some pid →
    0 < pid ∧ pid ≤ 2 ^ 22 ∧ ∀ Q : Party O U N, Q.pid site clients = some pid → P = Q

/-- Operator 101 and user 30101. -/
def highUser : Site (Fin 1) (Fin 1) :=
  .numbered { defaultConfig with numOperators := 1, numUsers := 1 } 30101 (fun _ => 0) (by decide)
    (by decide) (by decide)

def oneClient : Clients (Fin 1) := ⟨fun _ => 200, fun _ => none, by decide, by decide⟩

theorem highUser_handedOut : HandedOut highUser oneClient := by
  have hoperator : ∀ o, highUser.operatorPid o = 101 := by decide
  have huser : ∀ u, highUser.userPid u = 30101 := by decide
  have hclient : ∀ c, oneClient.pid c = 200 := by decide
  have hticket : highUser.ticketPid = 100 := rfl
  intro P pid hP
  refine ⟨?_, ?_, fun Q hQ => ?_⟩
  · cases P <;> simp [Party.pid, hoperator, huser, hclient, hticket] at hP <;> omega
  · cases P <;> simp [Party.pid, hoperator, huser, hclient, hticket] at hP <;> omega
  · rw [← hP] at hQ
    cases P <;> cases Q <;> simp [Party.pid, hoperator, huser, hclient, hticket] at hQ ⊢
    all_goals exact Subsingleton.elim _ _

/-- A user and an operator can receive on the same type. -/
theorem user_on_operator_type : ¬ ∀ (site : Site (Fin 1) (Fin 1)) (clients : Clients (Fin 1)),
    HandedOut site clients → Unambiguous site clients := by
  intro hunambiguous
  have hapart := (hunambiguous highUser oneClient highUser_handedOut).typesApart
  exact hapart.operator 0 0 (by decide)

end PosteItaliane
