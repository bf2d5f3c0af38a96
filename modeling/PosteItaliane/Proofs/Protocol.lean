import PosteItaliane.Proofs.Letters

/-!
# The ticket and service protocol

What the conservation of letters means for each user: a blocked user has exactly one
message on its way, at the place the protocol says, and every other user has none. The
numbers the dispenser hands out are counted up, so no two users have the same one.
-/

namespace PosteItaliane

open Framework Framework.Mailbox

def ticketRequestsFrom (q : List Message) (pid : ℕ) : ℕ :=
  q.countP fun m => match m.body with
    | .ticketRequest r => r.senderPid = pid
    | _ => false

def ticketResponsesTo (q : List Message) (pid : ℕ) : ℕ :=
  q.countP fun m => match m.body with
    | .ticketResponse _ => m.mtype = pid
    | _ => false

def serviceRequestsFrom (q : List Message) (pid : ℕ) (number : ℤ) : ℕ :=
  q.countP fun m => match m.body with
    | .serviceRequest r => r = ⟨pid, number⟩
    | _ => false

def servicesDoneTo (q : List Message) (pid : ℕ) (number : ℤ) : ℕ :=
  q.countP fun m => match m.body with
    | .serviceDone d => m.mtype = pid ∧ d.ticketNumber = number
    | _ => false

/-- All messages from or to the process. -/
def messagesOf (q : List Message) (pid : ℕ) : ℕ :=
  q.countP fun m => m.mtype = pid ∨ m.body.words.1 = pid

variable {O U : Type} [Fintype O] [Fintype U]

def World.ticketsHandled (w : World O U) (pid : ℕ) : ℕ :=
  if w.ticket.phase = .holding pid then 1 else 0

/-- The operators that hold the request of a process with this ticket number. -/
def World.requestsHeld (w : World O U) (pid : ℕ) (number : ℤ) : ℕ :=
  (Finset.univ.filter fun o => w.heldBy o = some (.service pid number)).card

/-- Everything in the queue, at the dispenser and at the operators that is from or to the
process. -/
def World.lettersOf (w : World O U) (pid : ℕ) : ℕ :=
  messagesOf w.sh.queue pid + w.ticketsHandled pid +
    (Finset.univ.filter fun o => (w.heldBy o).map Letter.pid = some pid).card

/-- A ticket number is received. -/
def handedOut : Act O U → Option (U × ℤ)
  | .user u (.receiveTicket _ m) => some (u, Utente.readTicket m)
  | _ => none

/-- The tickets the dispenser has issued. -/
def issued (as : List (Act O U)) : ℕ :=
  as.countP fun a => match a with
    | .ticket (.reply _) => true
    | _ => false

/-- The increment the dispenser has still to make after sending a ticket. -/
def ErogatoreTicket.Phase.pending : ErogatoreTicket.Phase → ℤ
  | .sent => 1
  | _ => 0

/-- The state of the protocol after the steps `as`. -/
structure ProtocolKept (site : Site O U) (as : List (Act O U)) (w : World O U) : Prop where
  awaitTicket : ∀ u s, (w.users u).phase = .awaitTicket s →
    ticketRequestsFrom w.sh.queue (site.userPid u) + w.ticketsHandled (site.userPid u) +
      ticketResponsesTo w.sh.queue (site.userPid u) = 1 ∧ w.lettersOf (site.userPid u) = 1
  awaitDone : ∀ u x k start, (w.users u).phase = .awaitDone x k start →
    serviceRequestsFrom w.sh.queue (site.userPid u) x.ticket +
      w.requestsHeld (site.userPid u) x.ticket +
      servicesDoneTo w.sh.queue (site.userPid u) x.ticket = 1 ∧ w.lettersOf (site.userPid u) = 1
  idle : ∀ u, w.awaitedBy site u = none → w.lettersOf (site.userPid u) = 0
  once : ((as.filterMap handedOut).map Prod.snd).Nodup
  below : ∀ p ∈ as.filterMap handedOut, p.2 < w.ticket.ticketCounter + w.ticket.phase.pending
  session : ∀ u x, (w.users u).phase.session = some x → (u, x.ticket) ∈ as.filterMap handedOut
  distinct : ∀ u v x y, u ≠ v → (w.users u).phase.session = some x →
    (w.users v).phase.session = some y → x.ticket ≠ y.ticket

theorem Letters.awaitedBy_of_pid {site : Site O U} {w : World O U} (h : Letters site w)
    {l : Letter} (hl : 0 < w.inFlight l) {u : U} (hu : l.pid = site.userPid u) :
    w.awaitedBy site u = some l := by
  obtain ⟨v, hv, hvpid⟩ := h.awaitedBy_of_inFlight hl
  have huv : v = u := site.userPid_injective (hvpid.symm.trans hu)
  rwa [huv] at hv

theorem awaitedBy_pid {site : Site O U} {w : World O U} {u : U} {l : Letter}
    (h : w.awaitedBy site u = some l) : l.pid = site.userPid u := by
  simp only [World.awaitedBy] at h
  cases hphase : (w.users u).phase <;> rw [hphase] at h <;> cases h <;> rfl

theorem Letters.inFlight_eq_one {site : Site O U} {w : World O U} (h : Letters site w) {u : U}
    {l : Letter} (hl : w.awaitedBy site u = some l) : w.inFlight l = 1 := by
  rw [h.conserved l]
  apply total_eq_one hl
  intro v hv
  exact site.userPid_injective ((awaitedBy_pid hv).symm.trans (awaitedBy_pid hl))

theorem Letters.messagesOf_eq {site : Site O U} (hpids : PidsApart site) {w : World O U}
    (h : Letters site w) (u : U) :
    messagesOf w.sh.queue (site.userPid u) =
      w.sh.queue.countP fun m => m.letter.pid = site.userPid u := by
  apply List.countP_congr
  intro m hm
  have htyped := h.typed m hm
  simp only [decide_eq_true_eq]
  cases hbody : m.body with
  | ticketRequest r =>
    have htype : m.mtype ≠ site.userPid u := by
      rw [htyped.ticketRequest r hbody]
      exact (hpids.dispenser u).symm
    simp [Message.letter, hbody, Letter.pid, Body.words, htype]
  | ticketResponse r =>
    have hsender : r.generatorPid ≠ site.userPid u := by
      rw [htyped.ticketResponse r hbody]
      exact site.ticketPid_ne u
    simp [Message.letter, hbody, Letter.pid, Body.words, hsender]
  | serviceRequest r =>
    have htype := (htyped.serviceRequest r hbody).2 u
    simp [Message.letter, hbody, Letter.pid, Body.words, htype]
  | serviceDone d =>
    obtain ⟨o, ho⟩ := htyped.serviceDone d hbody
    have hsender : d.senderPid ≠ site.userPid u := by
      rw [ho]
      exact site.pids_disjoint o u
    simp [Message.letter, hbody, Letter.pid, Body.words, hsender]

omit [Fintype U] in
theorem inFlight_of_heldBy {w : World O U} {o : O} {l : Letter} (h : w.heldBy o = some l) :
    0 < w.inFlight l := by
  have hheld : 0 < total w.heldBy l := total_pos h
  simp only [World.inFlight]
  omega

omit [Fintype U] in
theorem held_ticket {w : World O U} {pid : ℕ} (h : w.ticket.phase = .holding pid) :
    0 < w.inFlight (.ticket pid) := by
  have hone : hit w.ticket.phase.held (.ticket pid) = 1 := by
    rw [h]
    exact hit_some_self _
  simp only [World.inFlight]
  omega

theorem Letters.lettersOf_awaited {site : Site O U} (hpids : PidsApart site) {w : World O U}
    (h : Letters site w) {u : U} {l : Letter} (hl : w.awaitedBy site u = some l) :
    w.lettersOf (site.userPid u) = 1 := by
  have hmine {l' : Letter} (hflight : 0 < w.inFlight l') (hpid : l'.pid = site.userPid u) :
      l' = l :=
    Option.some.inj ((h.awaitedBy_of_pid hflight hpid).symm.trans hl)
  have hlpid := awaitedBy_pid hl
  have hqueue : messagesOf w.sh.queue (site.userPid u) = queued w.sh.queue l := by
    rw [h.messagesOf_eq hpids u]
    apply List.countP_congr
    intro m hm
    simp only [decide_eq_true_eq, Option.some.injEq]
    exact ⟨hmine (inFlight_of_mem hm), fun hml => by rw [hml, hlpid]⟩
  have hticket : w.ticketsHandled (site.userPid u) = hit w.ticket.phase.held l := by
    simp only [World.ticketsHandled]
    by_cases hhold : w.ticket.phase = .holding (site.userPid u)
    · rw [if_pos hhold, ← hmine (held_ticket hhold) rfl, hhold]
      exact (hit_some_self _).symm
    · rw [if_neg hhold]
      by_contra hne
      have hheld := hit_pos (Nat.pos_of_ne_zero (Ne.symm hne))
      cases hphase : w.ticket.phase <;> rw [hphase] at hheld <;> cases hheld
      exact hhold (by rw [hphase]; exact congrArg _ hlpid)
  have hopers : (Finset.univ.filter fun o =>
      (w.heldBy o).map Letter.pid = some (site.userPid u)).card = total w.heldBy l := by
    rw [total_eq_card]
    congr 1
    apply Finset.filter_congr
    intro o _
    constructor
    · intro hmap
      obtain ⟨l', hl', hpid⟩ := Option.map_eq_some_iff.mp hmap
      rw [hl', hmine (inFlight_of_heldBy hl') hpid]
    · intro hheld
      rw [hheld, Option.map_some, hlpid]
  rw [World.lettersOf, hqueue, hticket, hopers]
  exact h.inFlight_eq_one hl

theorem Letters.lettersOf_idle {site : Site O U} (hpids : PidsApart site) {w : World O U}
    (h : Letters site w) {u : U} (hu : w.awaitedBy site u = none) :
    w.lettersOf (site.userPid u) = 0 := by
  have hmine {l : Letter} (hflight : 0 < w.inFlight l) : l.pid ≠ site.userPid u := by
    intro hpid
    have hl := h.awaitedBy_of_pid hflight hpid
    rw [hu] at hl
    cases hl
  have hqueue : messagesOf w.sh.queue (site.userPid u) = 0 := by
    rw [h.messagesOf_eq hpids u, List.countP_eq_zero]
    intro m hm
    simpa using hmine (inFlight_of_mem hm)
  have hticket : w.ticketsHandled (site.userPid u) = 0 := by
    rw [World.ticketsHandled, if_neg]
    intro hhold
    exact hmine (held_ticket hhold) rfl
  have hopers : (Finset.univ.filter fun o =>
      (w.heldBy o).map Letter.pid = some (site.userPid u)).card = 0 := by
    rw [Finset.card_eq_zero, Finset.filter_eq_empty_iff]
    intro o _ hmap
    obtain ⟨l, hl, hpid⟩ := Option.map_eq_some_iff.mp hmap
    exact hmine (inFlight_of_heldBy hl) hpid
  rw [World.lettersOf, hqueue, hticket, hopers]

variable [DecidableEq O] [DecidableEq U]

theorem queued_ticket (q : List Message) (pid : ℕ) :
    queued q (.ticket pid) = ticketRequestsFrom q pid + ticketResponsesTo q pid := by
  rw [queued, tally, ticketRequestsFrom, ticketResponsesTo, ← countP_or]
  · apply List.countP_congr
    intro m _
    cases hbody : m.body <;> simp [Message.letter, hbody]
  · intro m
    cases m.body <;> simp

theorem queued_service (q : List Message) (pid : ℕ) (n : ℤ) :
    queued q (.service pid n) = serviceRequestsFrom q pid n + servicesDoneTo q pid n := by
  rw [queued, tally, serviceRequestsFrom, servicesDoneTo, ← countP_or]
  · apply List.countP_congr
    intro m _
    cases hbody : m.body with
    | serviceRequest r =>
      obtain ⟨senderPid, ticketNumber⟩ := r
      simp [Message.letter, hbody]
    | _ => simp [Message.letter, hbody]
  · intro m
    cases m.body <;> simp

omit [DecidableEq O] [DecidableEq U] in
theorem Letters.awaitTicket {site : Site O U} {w : World O U} (h : Letters site w) {u : U}
    {s : ServiceId} (hu : (w.users u).phase = .awaitTicket s) :
    ticketRequestsFrom w.sh.queue (site.userPid u) + w.ticketsHandled (site.userPid u) +
      ticketResponsesTo w.sh.queue (site.userPid u) = 1 := by
  have hl : w.awaitedBy site u = some (.ticket (site.userPid u)) := by
    rw [World.awaitedBy, hu]
    rfl
  have hone := h.inFlight_eq_one hl
  have hopers : total w.heldBy (.ticket (site.userPid u)) = 0 := by
    apply total_eq_zero
    intro o
    rw [World.heldBy]
    cases (w.opers o).phase <;> simp [Operatore.Phase.held]
  have hticket : hit w.ticket.phase.held (.ticket (site.userPid u)) =
      w.ticketsHandled (site.userPid u) := by
    cases hphase : w.ticket.phase <;>
      simp [World.ticketsHandled, hphase, ErogatoreTicket.Phase.held, hit]
  rw [World.inFlight, queued_ticket, hopers, hticket] at hone
  omega

omit [DecidableEq O] [DecidableEq U] in
theorem Letters.awaitDone {site : Site O U} {w : World O U} (h : Letters site w) {u : U}
    {x : Utente.Session} {k : ℕ} {start : ℤ} (hu : (w.users u).phase = .awaitDone x k start) :
    serviceRequestsFrom w.sh.queue (site.userPid u) x.ticket +
      w.requestsHeld (site.userPid u) x.ticket +
      servicesDoneTo w.sh.queue (site.userPid u) x.ticket = 1 := by
  have hl : w.awaitedBy site u = some (.service (site.userPid u) x.ticket) := by
    rw [World.awaitedBy, hu]
    rfl
  have hone := h.inFlight_eq_one hl
  have hopers : total w.heldBy (.service (site.userPid u) x.ticket) =
      w.requestsHeld (site.userPid u) x.ticket :=
    total_eq_card w.heldBy _
  have hticket : hit w.ticket.phase.held (.service (site.userPid u) x.ticket) = 0 := by
    cases w.ticket.phase <;> simp [ErogatoreTicket.Phase.held, hit]
  rw [World.inFlight, queued_service, hopers, hticket] at hone
  omega

def ticketNumber (m : Message) : Option ℤ :=
  match m.body with
  | .ticketResponse r => some r.ticketNumber
  | _ => none

/-- The numbers that were handed out or are on their way. -/
def numbers (as : List (Act O U)) (w : World O U) : List ℤ :=
  (as.filterMap handedOut).map Prod.snd ++ w.sh.queue.filterMap ticketNumber

/-- The dispenser counts up, and no number is there twice. -/
structure Numbered (as : List (Act O U)) (w : World O U) : Prop where
  counter : w.ticket.ticketCounter + w.ticket.phase.pending = issued as
  nodup : (numbers as w).Nodup
  below : ∀ n ∈ numbers as w, n < issued as
  session : ∀ u x, (w.users u).phase.session = some x → (u, x.ticket) ∈ as.filterMap handedOut

omit [Fintype O] [Fintype U] [DecidableEq O] [DecidableEq U] in
theorem issued_append (as bs : List (Act O U)) :
    issued (as ++ bs) = issued as + issued bs := by
  simp [issued, List.countP_append]

omit [Fintype O] [Fintype U] [DecidableEq O] [DecidableEq U] in
theorem issued_of_not_reply {a : Act O U} (h : ∀ pid, a ≠ .ticket (.reply pid)) :
    issued [a] = 0 := by
  cases a with
  | ticket b =>
    cases b <;> try rfl
    case reply pid => exact absurd rfl (h pid)
  | _ => rfl

theorem increment_of_lt {n : ℤ} (h0 : 0 ≤ n + 1) (h : n + 1 < 2 ^ 31) :
    ErogatoreTicket.increment n = n + 1 := by
  rw [ErogatoreTicket.increment, Int.bmod_eq_of_le] <;> omega

omit [Fintype O] [Fintype U] [DecidableEq O] [DecidableEq U] in
theorem numbers_receive {as : List (Act O U)} {w w' : World O U} {a : Act O U} {t : ℕ}
    (hnone : handedOut a = none) (hq : w'.sh.queue = afterReceive w.sh.queue t) :
    (numbers (as ++ [a]) w').Sublist (numbers as w) := by
  have hsub : (afterReceive w.sh.queue t).Sublist w.sh.queue := List.eraseP_sublist
  simp only [numbers, hq, List.filterMap_append, List.filterMap_cons, hnone, List.filterMap_nil,
    List.append_nil]
  exact (List.Sublist.refl _).append (hsub.filterMap ticketNumber)

omit [Fintype O] [Fintype U] [DecidableEq O] [DecidableEq U] in
theorem numbers_handedOut {as : List (Act O U)} {w w' : World O U} {u : U} {s : ServiceId}
    {m : Message} (hfirst : firstOfType w.sh.queue m.mtype = some m)
    (hq : w'.sh.queue = afterReceive w.sh.queue m.mtype)
    (hm : ticketNumber m = some (Utente.readTicket m)) :
    (numbers (as ++ [.user u (.receiveTicket s m)]) w').Perm (numbers as w) := by
  have hperm := (perm_of_find? hfirst).filterMap ticketNumber
  rw [List.filterMap_cons_some hm] at hperm
  have hmap : ((as ++ [Act.user u (.receiveTicket s m)] : List (Act O U)).filterMap
      handedOut).map Prod.snd =
      (as.filterMap handedOut).map Prod.snd ++ [Utente.readTicket m] := by
    simp [handedOut]
  simp only [numbers]
  rw [hq, hmap, List.append_assoc]
  exact (List.Perm.refl _).append hperm.symm

omit [DecidableEq O] [DecidableEq U] in
theorem Letters.ticketNumber_received {site : Site O U} (hpids : PidsApart site) {w : World O U}
    (h : Letters site w) {u : U} {s : ServiceId} {m : Message}
    (hu : (w.users u).phase = .awaitTicket s) (hm : m ∈ w.sh.queue)
    (ht : m.mtype = site.userPid u) : ticketNumber m = some (Utente.readTicket m) := by
  have hletter := h.letter_of_user hpids hm ht
  rw [World.awaitedBy, hu] at hletter
  cases hbody : m.body with
  | ticketRequest r =>
    have htype := ht.symm.trans ((h.typed m hm).ticketRequest r hbody)
    exact absurd htype (hpids.dispenser u)
  | ticketResponse r => simp [ticketNumber, Utente.readTicket, Body.words, hbody]
  | serviceRequest r => simp [Utente.Phase.awaited, Message.letter, hbody] at hletter
  | serviceDone d => simp [Utente.Phase.awaited, Message.letter, hbody] at hletter

omit [DecidableEq O] [DecidableEq U] in
theorem ticketNumber_sentBy (site : Site O U) (w : World O U) {a : Act O U} {m : Message}
    (h : sentBy site w a = some m) (hreply : ∀ pid, a ≠ .ticket (.reply pid)) :
    ticketNumber m = none := by
  cases a with
  | user u b =>
    cases b <;> simp only [sentBy, reduceCtorEq, Option.some.injEq] at h <;> subst h <;> rfl
  | oper o b =>
    cases b <;> simp only [sentBy, reduceCtorEq, Option.some.injEq] at h
    case reply k q time =>
      subst h
      rfl
  | ticket b =>
    cases b <;> simp only [sentBy, reduceCtorEq, Option.some.injEq] at h
    case reply pid => exact absurd rfl (hreply pid)
  | director b => cases h
  | «section» => cases h

theorem Numbered.keep {site : Site O U} (hpids : PidsApart site) {as : List (Act O U)}
    {w : World O U} (h : Numbered as w) (hletters : Letters site w) {a : Act O U}
    (ha : w.Enabled site a) (hreply : ∀ pid, a ≠ .ticket (.reply pid))
    (hcounter : (w.next site a).ticket.ticketCounter + (w.next site a).ticket.phase.pending =
      w.ticket.ticketCounter + w.ticket.phase.pending) :
    Numbered (as ++ [a]) (w.next site a) := by
  have hissued : issued (as ++ [a]) = issued as := by
    rw [issued_append, issued_of_not_reply hreply, Nat.add_zero]
  have hsub : ∃ l, (numbers (as ++ [a]) (w.next site a)).Perm l ∧ l.Sublist (numbers as w) := by
    have hstep := queue_step site ha
    by_cases hticket : ∃ u s m, a = .user u (.receiveTicket s m)
    · obtain ⟨u, s, m, rfl⟩ := hticket
      have hfirst := firstOfType_eq_some ha.2.2.1
      have hm := hletters.ticketNumber_received hpids ha.2.1 hfirst.1 hfirst.2
      exact ⟨_, numbers_handedOut hstep.1 hstep.2 hm, List.Sublist.refl _⟩
    · have hnone : handedOut a = none := by
        cases a with
        | user u b =>
          cases b <;> try rfl
          case receiveTicket s m => exact absurd ⟨u, s, m, rfl⟩ hticket
        | _ => rfl
      refine ⟨_, List.Perm.refl _, ?_⟩
      cases hreceived : receivedBy a with
      | some m =>
        rw [hreceived] at hstep
        exact numbers_receive hnone hstep.2
      | none =>
        rw [hreceived] at hstep
        have hsent : (sentBy site w a).toList.filterMap ticketNumber = [] := by
          cases hs : sentBy site w a with
          | none => rfl
          | some m => simp [ticketNumber_sentBy site w hs hreply]
        have hsame : numbers (as ++ [a]) (w.next site a) = numbers as w := by
          simp [numbers, hstep, hnone, hsent]
        exact hsame ▸ List.Sublist.refl _
  obtain ⟨l, hperm, hl⟩ := hsub
  refine ⟨by rw [hcounter, h.counter, hissued], hperm.nodup_iff.mpr (h.nodup.sublist hl), ?_, ?_⟩
  · intro n hn
    rw [hissued]
    exact h.below n (hl.subset (hperm.mem_iff.mp hn))
  · intro u x hx
    rw [List.filterMap_append, List.mem_append]
    rcases session_step site ha hx with hold | ⟨s, m, rfl, rfl, -⟩
    · exact Or.inl (h.session u x hold)
    · exact Or.inr (by simp [handedOut])

theorem Numbered.step {site : Site O U} (hpids : PidsApart site) {as : List (Act O U)}
    {w : World O U} (h : Numbered as w) (hletters : Letters site w) {a : Act O U}
    (ha : w.Enabled site a) (hrel : Reliable a) (hfew : issued (as ++ [a]) < 2 ^ 31) :
    Numbered (as ++ [a]) (w.next site a) := by
  cases a with
  | ticket b =>
    cases b
    case receive m =>
      apply h.keep hpids hletters ha (by simp)
      have hidle : w.ticket.phase = .idle := ha.1
      simp [World.next, ErogatoreTicket.next, ErogatoreTicket.Phase.pending, hidle]
    case reply pid =>
      have hhold : w.ticket.phase = .holding pid := ha
      have hcounter : w.ticket.ticketCounter = issued as := by
        have hsum := h.counter
        rw [hhold] at hsum
        simpa [ErogatoreTicket.Phase.pending] using hsum
      have hissued : issued (as ++ [Act.ticket (.reply pid)]) = issued as + 1 := issued_append as _
      have hnumbers : numbers (as ++ [.ticket (.reply pid)])
          (w.next site (.ticket (.reply pid))) = numbers as w ++ [(issued as : ℤ)] := by
        simp [numbers, handedOut, World.next, ErogatoreTicket.next, ticketNumber, hcounter]
      refine ⟨?_, ?_, ?_, ?_⟩
      · rw [hissued]
        simp [World.next, ErogatoreTicket.next, ErogatoreTicket.Phase.pending, hcounter]
      · rw [hnumbers]
        apply h.nodup.append (by simp)
        intro n hn hlast
        have hlt := h.below n hn
        rw [List.mem_singleton.mp hlast] at hlt
        omega
      · intro n hn
        rw [hnumbers, List.mem_append, List.mem_singleton] at hn
        rw [hissued]
        rcases hn with hn | rfl
        · have hlt := h.below n hn
          omega
        · omega
      · intro u x hx
        rw [List.filterMap_append, List.mem_append]
        exact Or.inl (h.session u x hx)
    case count =>
      apply h.keep hpids hletters ha (by simp)
      have hsent : w.ticket.phase = .sent := ha
      have hsum := h.counter
      rw [issued_append] at hfew
      rw [hsent] at hsum ⊢
      simp only [ErogatoreTicket.Phase.pending] at hsum ⊢
      have hinc : ErogatoreTicket.increment w.ticket.ticketCounter = w.ticket.ticketCounter + 1 :=
        increment_of_lt (by omega) (by omega)
      simp [World.next, ErogatoreTicket.next, hinc]
    case interrupted => exact hrel.elim
    case receiveFails => exact hrel.elim
    case replyFails pid => exact hrel.elim
  | user u b => exact h.keep hpids hletters ha (by simp) rfl
  | oper o b => exact h.keep hpids hletters ha (by simp) rfl
  | director b => exact h.keep hpids hletters ha (by simp) rfl
  | «section» => exact h.keep hpids hletters ha (by simp) rfl

omit [DecidableEq O] in
theorem numbered_init (site : Site O U) : Numbered [] (World.init site) where
  counter := rfl
  nodup := List.nodup_nil
  below := by
    intro n hn
    cases hn
  session := by
    intro u x hx
    exact absurd hx (by by_cases h : u ∈ site.initialUsers <;>
      simp [World.init, h, Utente.Phase.session])

omit [Fintype O] [Fintype U] [DecidableEq O] [DecidableEq U] in
theorem Numbered.distinct {as : List (Act O U)} {w : World O U} (h : Numbered as w) {u v : U}
    {x y : Utente.Session} (huv : u ≠ v) (hx : (w.users u).phase.session = some x)
    (hy : (w.users v).phase.session = some y) : x.ticket ≠ y.ticket := by
  intro hxy
  have hnodup := (List.nodup_append.mp h.nodup).1
  have hpair := List.inj_on_of_nodup_map hnodup (h.session u x hx) (h.session v y hy) hxy
  exact huv (congrArg Prod.fst hpair)

/-- If no call on the queue fails, no user's process id is 1, 30000 or 30000 plus an
operator's, and less than `2 ^ 31` tickets are issued, the protocol is kept. -/
theorem protocol_kept (site : Site O U) (hpids : PidsApart site)
    (hzero : ∀ u, site.userPid u ≠ serviceRequestType 0) (as : List (Act O U))
    (h : (poste site).Runs (World.init site) as) (hrel : ∀ a ∈ as, Reliable a)
    (hfew : issued as < 2 ^ 31) :
    ProtocolKept site as ((poste site).after (World.init site) as) := by
  have hnot (a : Act O U) : NotToUser site a := by
    cases a with
    | user u b =>
      cases b <;> try trivial
      case sendRequest x k op start => exact fun _ => hzero
    | _ => trivial
  have hstep (as : List (Act O U)) (w : World O U) (a : Act O U)
      (hw : Letters site w ∧ (issued as < 2 ^ 31 → Numbered as w))
      (ha : w.Enabled site a ∧ Reliable a) :
      Letters site (w.next site a) ∧
        (issued (as ++ [a]) < 2 ^ 31 → Numbered (as ++ [a]) (w.next site a)) := by
    refine ⟨hw.1.step hpids ha.1 ha.2 (hnot a), fun hlt => ?_⟩
    have hle : issued as ≤ issued (as ++ [a]) := by
      rw [issued_append]
      exact Nat.le_add_right _ _
    exact (hw.2 (lt_of_le_of_lt hle hlt)).step hpids hw.1 ha.1 ha.2 hlt
  obtain ⟨hletters, hnumbered⟩ :=
    ((poste site).restrict fun _ a => Reliable a).trace_invariant
      (P := fun as w => Letters site w ∧ (issued as < 2 ^ 31 → Numbered as w))
      ⟨letters_init site, fun _ => numbered_init site⟩ hstep as
      ((poste site).runs_restrict_const.mpr ⟨h, hrel⟩)
  rw [GuardedSystem.restrict_after] at hletters hnumbered
  have hnumbered := hnumbered hfew
  refine ⟨?_, ?_, fun u hu => hletters.lettersOf_idle hpids hu, ?_, ?_, hnumbered.session,
    fun u v x y => hnumbered.distinct⟩
  · intro u s hu
    refine ⟨hletters.awaitTicket hu,
      hletters.lettersOf_awaited hpids (l := .ticket (site.userPid u)) ?_⟩
    rw [World.awaitedBy, hu]
    rfl
  · intro u x k start hu
    refine ⟨hletters.awaitDone hu,
      hletters.lettersOf_awaited hpids (l := .service (site.userPid u) x.ticket) ?_⟩
    rw [World.awaitedBy, hu]
    rfl
  · exact (List.nodup_append.mp hnumbered.nodup).1
  · intro p hp
    rw [hnumbered.counter]
    exact hnumbered.below p.2 (List.mem_append_left _ (List.mem_map_of_mem hp))

omit [Fintype O] [Fintype U] [DecidableEq O] [DecidableEq U] in
theorem issued_quietMinutes (m : ℤ) (k : ℕ) :
    issued (quietMinutes m k : List (Act O U)) = 0 := by
  rw [issued, List.countP_eq_zero]
  exact forall_mem_quietMinutes (by simp [quietMinute]) m k

/-- The user gets its ticket and sends its request to the operator. -/
def counterRequest : List (Act (Fin 1) (Fin 1)) :=
  opening 480 2 ++ [.oper 0 .enter, .oper 0 .canWork, .oper 0 (.takeFree 0),
    .user 0 (.enter 481), .user 0 (.arrive 481), .user 0 (.nextService 0 []),
    .user 0 (.sendTicket 0), .ticket (.receive ⟨1, .ticketRequest ⟨1000, 0⟩⟩),
    .ticket (.reply 1000), .ticket .count,
    .user 0 (.receiveTicket 0 ⟨1000, .ticketResponse ⟨100, 0⟩⟩), .user 0 (.findSeats ⟨0, 0⟩),
    .user 0 (.takeSeat ⟨0, 0⟩ [0] 0), .user 0 (.readOperator ⟨0, 0⟩ 0),
    .user 0 (.readStart ⟨0, 0⟩ 0 101), .user 0 (.sendRequest ⟨0, 0⟩ 0 101 481)]

theorem protocol_kept_counter :
    ProtocolKept oneCounter (counterMorning ++ (quietMinutes 1 479 ++ counterRequest))
      ((poste oneCounter).after (World.init oneCounter)
        (counterMorning ++ (quietMinutes 1 479 ++ counterRequest))) := by
  refine protocol_kept oneCounter ⟨by decide, by decide⟩ (by decide) _ ?_ ?_ ?_
  · rw [GuardedSystem.runs_append]
    refine ⟨by decide, ?_⟩
    rw [runs_quiet (m := 1) ⟨by decide, by decide, by decide, by decide⟩ 478
      (fun i h1 h2 => quiet_default rfl rfl (by omega) (by omega) (by omega) (by omega))]
    decide
  · intro a ha
    simp only [List.mem_append] at ha
    rcases ha with ha | ha | ha
    · exact (by decide : ∀ a ∈ counterMorning, Reliable a) a ha
    · exact forall_mem_quietMinutes (by simp [quietMinute, Reliable]) 1 479 a ha
    · exact (by decide : ∀ a ∈ counterRequest, Reliable a) a ha
  · rw [issued_append, issued_append, issued_quietMinutes]
    decide

theorem office_pidsApart : PidsApart office where
  dispenser u := by
    simp only [office, Site.numbered, msgTypeTicketRequest]
    omega
  operator u o := by
    simp only [office, Site.numbered, serviceRequestType]
    omega

theorem officeWait_reliable : ∀ a ∈ officeNight ++ officeWait, Reliable a := by
  intro a ha
  rcases List.mem_append.mp ha with ha | ha
  · exact (by decide : ∀ a ∈ officeNight, Reliable a) a ha
  · exact forall_mem_officeWait (by simp [quietMinute, Reliable]) (by decide) a ha

theorem officeWait_issued : issued (officeNight ++ officeWait) = 0 := by
  have hnight : issued officeNight = 0 := by decide
  have hmorning : issued officeMorning = 0 := by decide
  have hopening : issued officeOpening = 0 := by decide
  simp only [officeWait, issued_append, issued_quietMinutes, hnight, hmorning, hopening]

theorem officeClosing_letters :
    (((poste office).after atCounters officeClosing).users 1).phase = .awaitDone ⟨0, 1⟩ 0 1201 ∧
    ((poste office).after atCounters officeClosing).lettersOf 30000 = 2 := by
  exact ⟨by decide, by decide⟩

/-- The first user has its ticket before the dispenser counts it. -/
def ticketBeforeCount : List (Act (Fin 2) (Fin 2)) :=
  [.user 0 (.arrive 1195), .user 0 (.nextService 0 []), .user 0 (.sendTicket 0),
    .ticket (.receive ⟨1, .ticketRequest ⟨29999, 0⟩⟩), .ticket (.reply 29999),
    .user 0 (.receiveTicket 0 ⟨29999, .ticketResponse ⟨100, 0⟩⟩)]

/-- With a user of process id 30000 a blocked user can have two messages on their way, and a
ticket number can be equal to the counter. -/
theorem protocol_broken : PidsApart office ∧
    (¬ ∀ as : List (Act (Fin 2) (Fin 2)), (poste office).Runs (World.init office) as →
      (∀ a ∈ as, Reliable a) → issued as < 2 ^ 31 → ∀ u x k start,
      (((poste office).after (World.init office) as).users u).phase = .awaitDone x k start →
      ((poste office).after (World.init office) as).lettersOf (office.userPid u) = 1) ∧
    ¬ ∀ as : List (Act (Fin 2) (Fin 2)), (poste office).Runs (World.init office) as →
      (∀ a ∈ as, Reliable a) → issued as < 2 ^ 31 → ∀ u x,
      (((poste office).after (World.init office) as).users u).phase.session = some x →
      x.ticket < ((poste office).after (World.init office) as).ticket.ticketCounter := by
  refine ⟨office_pidsApart, fun honeLetter => ?_, fun hbelow => ?_⟩
  · have hone := honeLetter ((officeNight ++ officeWait) ++ (officeTickets ++ officeClosing)) ?_ ?_ ?_
      1 ⟨0, 1⟩ 0 1201
    · rw [GuardedSystem.after_append, officeWait_after, GuardedSystem.after_append] at hone
      have htwo := officeClosing_letters
      exact absurd ((hone htwo.1).symm.trans htwo.2) (by decide)
    · rw [GuardedSystem.runs_append, officeWait_after]
      exact ⟨officeWait_runs, by decide⟩
    · intro a ha
      rcases List.mem_append.mp ha with ha | ha
      · exact officeWait_reliable a ha
      · exact (by decide : ∀ a ∈ officeTickets ++ officeClosing, Reliable a) a ha
    · rw [issued_append, officeWait_issued]
      decide
  · have hlt := hbelow ((officeNight ++ officeWait) ++ ticketBeforeCount) ?_ ?_ ?_ 0 ⟨0, 0⟩
    · rw [GuardedSystem.after_append, officeWait_after] at hlt
      exact absurd (hlt (by decide)) (by decide)
    · rw [GuardedSystem.runs_append, officeWait_after]
      exact ⟨officeWait_runs, by decide⟩
    · intro a ha
      rcases List.mem_append.mp ha with ha | ha
      · exact officeWait_reliable a ha
      · exact (by decide : ∀ a ∈ ticketBeforeCount, Reliable a) a ha
    · rw [issued_append, officeWait_issued]
      decide

end PosteItaliane
