import PosteItaliane.Proofs.Replies

/-!
# Requests and the operators they are addressed to

A user takes its seat, reads the operator's process id and sends its request in three
steps, and an operator may leave between any two of them or afterwards. If no user reads
the id of an operator that has left, and no operator leaves a seat whose user has read its id
and not been answered, then within a day every request in the queue is addressed to an
operator of the right service that is still serving: a request and the reply to it are one
letter, so the request of a user whose reply is there has been taken out of the queue.
-/

namespace PosteItaliane

open Framework Framework.Mailbox

/-- The seat of a user that has read the operator's process id and no reply. -/
def Utente.Phase.waitsAt : Utente.Phase → Option ℕ
  | .readStart _ k _ => some k
  | .sendRequest _ k _ _ => some k
  | .awaitDone _ k _ => some k
  | _ => none

section Conditions

variable {O U : Type} [Fintype O] [Fintype U]

/-- The seats are reset only while nobody is inside `work_loop` or `handle_service`. -/
def WithinDay (w : World O U) : Act O U → Prop
  | .director (.resetSeats _) => (∀ o, (w.opers o).phase.inWorkLoop = false) ∧
      ∀ u, (w.users u).phase.inHandleService = false
  | _ => True

/-- An operator has a request of the user in its hands. -/
def BeingServed (site : Site O U) (w : World O U) (u : U) : Prop :=
  ∃ o, (w.heldBy o).map Letter.pid = some (site.userPid u)

/-- The reply to the user is in the queue. -/
def Replied (site : Site O U) (w : World O U) (u : U) : Prop :=
  ∃ m ∈ w.sh.queue, m.mtype = site.userPid u ∧ m.body.isRequest = false

/-- A user reads the process id at an attended seat, an operator leaves a seat when no user
there is on the way to `await_service_done` or waits in it without its reply, and a user gives
up on a reply only when its request has been taken. -/
def Attended (site : Site O U) (w : World O U) : Act O U → Prop
  | .user _ (.readOperator _ k) => (w.sh.seats k).operatorStatus = .occupied
  | .oper _ (.release k _) => ∀ u, (w.users u).phase.waitsAt = some k →
      (w.awaitedBy site u).isSome ∧ Replied site w u
  | .user u (.receiveDoneFails _ _ _) => BeingServed site w u ∨ Replied site w u
  | _ => True

instance (w : World O U) (a : Act O U) : Decidable (WithinDay w a) := by
  rcases a with _ | _ | _ | b | _
  case director => rcases b with _ | _ <;> (dsimp only [WithinDay]; infer_instance)
  all_goals exact isTrue trivial

instance (site : Site O U) (w : World O U) (u : U) : Decidable (BeingServed site w u) :=
  inferInstanceAs (Decidable (∃ _, _))

instance (site : Site O U) (w : World O U) (u : U) : Decidable (Replied site w u) :=
  inferInstanceAs (Decidable (∃ _ ∈ _, _))

instance (site : Site O U) (w : World O U) (a : Act O U) : Decidable (Attended site w a) := by
  rcases a with ⟨o, b⟩ | ⟨u, b⟩ | _
  case oper => rcases b with _ | _ <;> (dsimp only [Attended]; infer_instance)
  case user => rcases b with _ | _ <;> (dsimp only [Attended]; infer_instance)
  all_goals exact isTrue trivial

/-- Somebody is at work who answers requests for the service to the process id. -/
def Serves (site : Site O U) (w : World O U) (s : ServiceId) (pid : ℕ) : Prop :=
  ∃ o, pid = site.operatorPid o ∧ (w.currentSeat o).isSome ∧ site.userService o = s

/-- Every request in the queue was sent in a session for some service, to an operator of that
service who is in its serving loop. -/
def RequestsStaffed (site : Site O U) (as : List (Act O U)) (w : World O U) : Prop :=
  ∀ m ∈ w.sh.queue, ∀ r, m.body = .serviceRequest r →
    ∃ u x k pid start, Act.user u (.sendRequest x k pid start) ∈ as ∧
      m.mtype = serviceRequestType pid ∧ r = ⟨site.userPid u, x.ticket⟩ ∧
      Serves site w x.service pid

/-- The operator of the process id sits at the seat and offers the service. -/
def ServesAt (site : Site O U) (w : World O U) (s : ServiceId) (k pid : ℕ) : Prop :=
  ∃ o, pid = site.operatorPid o ∧ w.currentSeat o = some k ∧ site.userService o = s

/-- The letters to and from a process that are in the queue or in somebody's hands. -/
def World.lettersTo (w : World O U) (pid : ℕ) : ℕ :=
  tally (fun m => some m.letter.pid) w.sh.queue pid + hit (w.ticket.phase.held.map Letter.pid) pid +
    total (fun o => (w.heldBy o).map Letter.pid) pid

/-- What carries the property from step to step. -/
structure Staffed (site : Site O U) (as : List (Act O U)) (w : World O U) : Prop where
  table : TablePresent site w
  posted : ∀ m ∈ w.sh.queue, Posted site m
  single : ∀ u, w.lettersTo (site.userPid u) ≤ 1
  requests : ∀ m ∈ w.sh.queue, ∀ r, m.body = .serviceRequest r → ∃ u x k pid start,
    Act.user u (.sendRequest x k pid start) ∈ as ∧ (w.users u).phase = .awaitDone x k start ∧
      m.mtype = serviceRequestType pid ∧ r = ⟨site.userPid u, x.ticket⟩ ∧
      ServesAt site w x.service k pid
  addressed : ∀ u s k pid, (w.users u).phase.addressed = some (s, k, pid) →
    ServesAt site w s k pid
  valid : ∀ u s valid, (w.users u).phase.validSeats = some (s, valid) →
    ∀ k ∈ valid, (w.sh.seats k).serviceId = s
  chosen : ∀ o k, (w.opers o).phase.chosenSeat = some k →
    (w.sh.seats k).serviceId = site.userService o

end Conditions

section Letters

variable {O U : Type} [Fintype O] [Fintype U]

theorem Posted.letter_pid {site : Site O U} {m : Message} (h : Posted site m) {u : U}
    (hm : m.body.words.1 = site.userPid u) : m.letter.pid = site.userPid u := by
  cases hbody : m.body with
  | ticketRequest r => simpa [Message.letter, hbody, Letter.pid, Body.words] using hm
  | ticketResponse r =>
    rw [hbody, Body.words, h.ticketResponse r hbody] at hm
    exact absurd hm (site.ticketPid_ne u)
  | serviceRequest r => simpa [Message.letter, hbody, Letter.pid, Body.words] using hm
  | serviceDone d =>
    obtain ⟨o, ho⟩ := h.serviceDone d hbody
    rw [hbody, Body.words, ho] at hm
    exact absurd hm (site.pids_disjoint o u)

theorem Posted.hit_words_le {site : Site O U} {m : Message} (h : Posted site m) (u : U) :
    hit (some m.body.words.1) (site.userPid u) ≤ hit (some m.letter.pid) (site.userPid u) := by
  by_cases hwords : m.body.words.1 = site.userPid u
  · rw [h.letter_pid hwords, hwords]
  · rw [hit, if_neg fun hsome => hwords (Option.some.inj hsome)]
    exact Nat.zero_le _

omit [Fintype U] in
theorem lettersTo_eq_zero {w : World O U} {pid : ℕ} (h : ¬ w.OnTheWay pid) :
    w.lettersTo pid = 0 := by
  simp only [World.OnTheWay, not_or, not_exists, not_and] at h
  obtain ⟨hqueue, hticket, hopers⟩ := h
  have htally : tally (fun m => some m.letter.pid) w.sh.queue pid = 0 := by
    by_contra hne
    obtain ⟨m, hm, hpid⟩ := List.countP_pos_iff.mp (Nat.pos_of_ne_zero hne)
    exact hqueue m hm (by simpa using hpid)
  rw [World.lettersTo, htally, total_eq_zero hopers, hit, if_neg hticket]

theorem two_le_lettersTo {site : Site O U} {w : World O U} {u : U} {m : Message}
    (hm : m ∈ w.sh.queue) {r : ServiceRequest} (hr : m.body = .serviceRequest r)
    (hsender : r.senderPid = site.userPid u) (h : BeingServed site w u ∨ Replied site w u) :
    2 ≤ w.lettersTo (site.userPid u) := by
  have hpid : m.letter.pid = site.userPid u := by
    simpa [Message.letter, hr, Letter.pid] using hsender
  rcases h with ⟨o, ho⟩ | ⟨m', hm', htype, hreply⟩
  · have hone : 0 < tally (fun m => some m.letter.pid) w.sh.queue (site.userPid u) :=
      tally_pos hm (congrArg some hpid)
    have htwo : 0 < total (fun o => (w.heldBy o).map Letter.pid) (site.userPid u) := total_pos ho
    rw [World.lettersTo]
    omega
  · have hpid' : m'.letter.pid = site.userPid u := by
      rw [← htype]
      cases hbody : m'.body with
      | ticketRequest r => rw [hbody] at hreply; cases hreply
      | ticketResponse r => simp [Message.letter, hbody, Letter.pid]
      | serviceRequest r => rw [hbody] at hreply; cases hreply
      | serviceDone d => simp [Message.letter, hbody, Letter.pid]
    have hsplit : tally (fun m => some m.letter.pid) w.sh.queue (site.userPid u) =
        w.sh.queue.countP (fun m => m.body.isRequest && (m.letter.pid == site.userPid u)) +
          w.sh.queue.countP (fun m => !m.body.isRequest && (m.letter.pid == site.userPid u)) := by
      have hkinds (m : Message) (hp : (m.body.isRequest && (m.letter.pid == site.userPid u)) = true) :
          (!m.body.isRequest && (m.letter.pid == site.userPid u)) = false := by
        rw [Bool.and_eq_true] at hp
        rw [hp.1]
        rfl
      rw [← countP_or hkinds, tally]
      apply List.countP_congr
      intro m _
      cases m.body.isRequest <;> simp
    have hone : 0 < w.sh.queue.countP
        (fun m => m.body.isRequest && (m.letter.pid == site.userPid u)) :=
      List.countP_pos_iff.mpr ⟨m, hm, by simp [hr, Body.isRequest, hpid]⟩
    have htwo : 0 < w.sh.queue.countP
        (fun m => !m.body.isRequest && (m.letter.pid == site.userPid u)) :=
      List.countP_pos_iff.mpr ⟨m', hm', by simp [hreply, hpid']⟩
    rw [World.lettersTo]
    omega

end Letters

variable {O U : Type} [Fintype O] [Fintype U] [DecidableEq O] [DecidableEq U]

theorem lettersTo_user {site : Site O U} {w : World O U} {v : U} {b : Utente.Act}
    (ha : w.Enabled site (.user v b)) (u : U) :
    (v = u ∧ (sentBy site w (.user v b)).isSome ∧
        (w.next site (.user v b)).lettersTo (site.userPid u) = w.lettersTo (site.userPid u) + 1) ∨
      (w.next site (.user v b)).lettersTo (site.userPid u) ≤ w.lettersTo (site.userPid u) := by
  have hstep := queue_step site ha
  have hheld : (w.next site (.user v b)).heldBy = w.heldBy := rfl
  have hticket : (w.next site (.user v b)).ticket = w.ticket := rfl
  simp only [World.lettersTo, hheld, hticket]
  cases hr : receivedBy (.user v b : Act O U) with
  | some m =>
    rw [hr] at hstep
    have htally := tally_receive hstep.1 (fun m => some m.letter.pid) (site.userPid u)
    rw [hstep.2, afterReceive]
    right
    omega
  | none =>
    rw [hr] at hstep
    cases hs : sentBy site w (.user v b) with
    | none =>
      rw [hs] at hstep
      rw [show (w.next site (.user v b)).sh.queue = w.sh.queue by simpa using hstep]
      exact Or.inr le_rfl
    | some m =>
      rw [hs] at hstep
      have hpid : m.letter.pid = site.userPid v := by
        cases b <;> simp only [sentBy, reduceCtorEq, Option.some.injEq] at hs <;> subst hs <;> rfl
      rw [show (w.next site (.user v b)).sh.queue = w.sh.queue ++ [m] from hstep, tally_send, hpid]
      by_cases hv : v = u
      · subst v
        left
        refine ⟨rfl, rfl, ?_⟩
        rw [hit_some_self]
        omega
      · right
        have hother : hit (some (site.userPid v)) (site.userPid u) = 0 :=
          if_neg fun h => hv (site.userPid_injective (Option.some.inj h))
        omega

theorem lettersTo_oper {site : Site O U} {w : World O U} {o : O} {b : Operatore.Act}
    (hposted : ∀ m ∈ w.sh.queue, Posted site m) (ha : w.Enabled site (.oper o b)) (u : U) :
    (w.next site (.oper o b)).lettersTo (site.userPid u) ≤ w.lettersTo (site.userPid u) := by
  have hstep := queue_step site ha
  have hticket : (w.next site (.oper o b)).ticket = w.ticket := rfl
  have hnext : (fun p => ((w.next site (.oper o b)).heldBy p).map Letter.pid) =
      Function.update (fun p => (w.heldBy p).map Letter.pid) o
        ((Operatore.next site o (w.opers o) w.sh b).1.phase.held.map Letter.pid) :=
    opers_next (fun _ l => l.phase.held.map Letter.pid) site w o b
  have hheld := total_update (fun p => (w.heldBy p).map Letter.pid) o
    ((Operatore.next site o (w.opers o) w.sh b).1.phase.held.map Letter.pid) (site.userPid u)
  simp only [World.lettersTo, hticket, hnext]
  obtain ⟨-, he⟩ := ha
  cases b
  case receive k m =>
    obtain ⟨hfirst, hq⟩ := hstep
    have htally := tally_receive hfirst (fun m => some m.letter.pid) (site.userPid u)
    have hreads : hit ((Operatore.next site o (w.opers o) w.sh (.receive k m)).1.phase.held.map
        Letter.pid) (site.userPid u) ≤ hit (some m.letter.pid) (site.userPid u) := by
      by_cases hignored : Operatore.Ignored (Operatore.readRequest m)
      · simp [Operatore.next, hignored, Operatore.Phase.held]
      · simp only [Operatore.next, if_neg hignored]
        exact (hposted m (firstOfType_eq_some hfirst).1).hit_words_le u
    rw [hq, afterReceive]
    omega
  case reply k q time =>
    have he : (w.opers o).phase = .reply k q time := he
    have hq : (w.next site (.oper o (.reply k q time))).sh.queue = w.sh.queue ++ [_] := hstep
    rw [World.heldBy, he] at hheld
    rw [hq, tally_send]
    simp only [Operatore.next, Operatore.Phase.held, Option.map_some, Option.map_none, hit_none,
      Letter.pid] at hheld
    simp only [Operatore.next, Operatore.Phase.held, Option.map_none, Message.letter, Letter.pid]
    omega
  case receiveFails k =>
    have hq : (w.next site (.oper o (.receiveFails k))).sh.queue = w.sh.queue := rfl
    simp only [Operatore.next, Operatore.Phase.held, Option.map_none, hit_none] at hheld
    rw [hq]
    simp only [Operatore.next, Operatore.Phase.held, Option.map_none]
    omega
  case replyFails k q time =>
    have hq : (w.next site (.oper o (.replyFails k q time))).sh.queue = w.sh.queue := rfl
    simp only [Operatore.next, Operatore.Phase.held, Option.map_none, hit_none] at hheld
    rw [hq]
    simp only [Operatore.next, Operatore.Phase.held, Option.map_none]
    omega
  all_goals
    have hkeep := held_keep site he trivial rfl rfl
    rw [hkeep] at hheld ⊢
    rw [show (w.next site (.oper o _)).sh.queue = w.sh.queue from rfl]
    omega

theorem lettersTo_ticket {site : Site O U} {w : World O U} {b : ErogatoreTicket.Act}
    (hposted : ∀ m ∈ w.sh.queue, Posted site m) (ha : w.Enabled site (.ticket b)) (u : U) :
    (w.next site (.ticket b)).lettersTo (site.userPid u) ≤ w.lettersTo (site.userPid u) := by
  have hstep := queue_step site ha
  have hheld : (w.next site (.ticket b)).heldBy = w.heldBy := rfl
  simp only [World.lettersTo, hheld]
  cases b
  case receive m =>
    obtain ⟨hfirst, hq⟩ := hstep
    have htally := tally_receive hfirst (fun m => some m.letter.pid) (site.userPid u)
    have hreads : hit ((w.next site (.ticket (.receive m))).ticket.phase.held.map Letter.pid)
        (site.userPid u) ≤ hit (some m.letter.pid) (site.userPid u) :=
      (hposted m (firstOfType_eq_some hfirst).1).hit_words_le u
    rw [hq, afterReceive]
    omega
  case reply pid =>
    have he : w.ticket.phase = .holding pid := ha
    have hq : (w.next site (.ticket (.reply pid))).sh.queue = w.sh.queue ++ [_] := hstep
    have hsent : hit ((w.next site (.ticket (.reply pid))).ticket.phase.held.map Letter.pid)
        (site.userPid u) = 0 := hit_none _
    rw [hq, tally_send, hsent, he]
    simp only [ErogatoreTicket.Phase.held, Option.map_some, Message.letter, Letter.pid]
    omega
  case interrupted => exact le_rfl
  all_goals
    refine Nat.add_le_add_right (Nat.add_le_add_left ?_ _) _
    exact (hit_none (site.userPid u)).le.trans (Nat.zero_le _)

/-- A user gets more letters by what it sends only. -/
theorem lettersTo_step {site : Site O U} {w : World O U} {a : Act O U}
    (hposted : ∀ m ∈ w.sh.queue, Posted site m) (ha : w.Enabled site a) (u : U) :
    (∃ b, a = .user u b ∧ (sentBy site w a).isSome ∧
        (w.next site a).lettersTo (site.userPid u) = w.lettersTo (site.userPid u) + 1) ∨
      (w.next site a).lettersTo (site.userPid u) ≤ w.lettersTo (site.userPid u) := by
  cases a with
  | user v b =>
    rcases lettersTo_user ha u with ⟨rfl, hsent, hmore⟩ | hle
    · exact Or.inl ⟨b, rfl, hsent, hmore⟩
    · exact Or.inr hle
  | oper o b => exact Or.inr (lettersTo_oper hposted ha u)
  | ticket b => exact Or.inr (lettersTo_ticket hposted ha u)
  | director b => cases b <;> exact Or.inr le_rfl
  | «section» => exact Or.inr le_rfl

theorem ServesAt.keep {site : Site O U} {w : World O U} {s : ServiceId} {k pid : ℕ}
    (h : ServesAt site w s k pid) {a : Act O U} (ha : w.Enabled site a)
    (hrelease : ∀ o early, a ≠ .oper o (.release k early)) :
    ServesAt site (w.next site a) s k pid := by
  obtain ⟨o, hpid, hseat, hservice⟩ := h
  rcases currentSeat_step site ha hseat with hkeep | ⟨early, hev⟩
  · exact ⟨o, hpid, hkeep, hservice⟩
  · exact absurd hev (hrelease o early)

theorem awaitDone_step (site : Site O U) {w : World O U} {a : Act O U} (ha : w.Enabled site a)
    {u : U} {x : Utente.Session} {k : ℕ} {start : ℤ}
    (h : (w.users u).phase = .awaitDone x k start) :
    ((w.next site a).users u).phase = .awaitDone x k start ∨
      (∃ m d, a = .user u (.receiveDone x k start m d)) ∨
      a = .user u (.receiveDoneFails x k start) := by
  rcases user_step site ha u with hu | ⟨b, rfl, he, hu⟩ | ⟨n, rfl, hnot, hu⟩
  · left
    rw [hu]
    exact h
  · cases b
    case receiveDone y j start' m d =>
      have hphase : (w.users u).phase = .awaitDone y j start' := he.1
      rw [h] at hphase
      cases hphase
      exact Or.inr (Or.inl ⟨m, d, rfl⟩)
    case receiveDoneFails y j start' =>
      have hphase : (w.users u).phase = .awaitDone y j start' := he
      rw [h] at hphase
      cases hphase
      exact Or.inr (Or.inr rfl)
    all_goals
      exfalso
      simp only [Utente.Enabled, h] at he
      grind
  · rw [h] at hnot
    cases hnot

omit [DecidableEq O] [DecidableEq U] in
/-- A request in the queue has been neither taken nor answered. -/
theorem Staffed.not_taken {site : Site O U} {as : List (Act O U)} {w : World O U}
    (h : Staffed site as w) {m : Message} (hm : m ∈ w.sh.queue) {u : U} {n : ℤ}
    (hr : m.body = .serviceRequest ⟨site.userPid u, n⟩) :
    ¬ (BeingServed site w u ∨ Replied site w u) := by
  intro htaken
  have htwo := two_le_lettersTo hm hr rfl htaken
  have hone := h.single u
  omega

theorem Staffed.single_step {site : Site O U} {as : List (Act O U)} {w : World O U}
    (h : Staffed site as w) {a : Act O U} (ha : w.Enabled site a) (hclean : StartsClean site w a)
    (u : U) : (w.next site a).lettersTo (site.userPid u) ≤ 1 := by
  have hone := h.single u
  rcases lettersTo_step h.posted ha u with ⟨b, rfl, hsent, hmore⟩ | hle
  · obtain ⟨m, hm⟩ := Option.isSome_iff_exists.mp hsent
    have hzero := lettersTo_eq_zero (startsClean_of_sentBy hclean hm)
    omega
  · omega

theorem Staffed.requests_step {site : Site O U} {as : List (Act O U)} {w : World O U}
    (h : Staffed site as w) {a : Act O U} (ha : w.Enabled site a) (hatt : Attended site w a)
    (hclean : StartsClean site w a) {m : Message} (hm : m ∈ (w.next site a).sh.queue)
    {r : ServiceRequest} (hr : m.body = .serviceRequest r) : ∃ u x k pid start,
      Act.user u (.sendRequest x k pid start) ∈ as ++ [a] ∧
        ((w.next site a).users u).phase = .awaitDone x k start ∧
        m.mtype = serviceRequestType pid ∧ r = ⟨site.userPid u, x.ticket⟩ ∧
        ServesAt site (w.next site a) x.service k pid := by
  rcases mem_queue_step site ha hm with hold | hsent
  · obtain ⟨u, x, k, pid, start, hmem, hphase, htype, rfl, hserves⟩ := h.requests m hold r hr
    have hfresh := h.not_taken hold hr
    refine ⟨u, x, k, pid, start, List.mem_append_left [a] hmem, ?_, htype, rfl, ?_⟩
    · rcases awaitDone_step site ha hphase with hkeep | ⟨m', d, rfl⟩ | rfl
      · exact hkeep
      · have hfirst := firstOfType_eq_some ha.2.2.1
        exact absurd (Or.inr ⟨m', hfirst.1, hfirst.2, hclean⟩) hfresh
      · exact absurd hatt hfresh
    · apply hserves.keep ha
      rintro o early rfl
      exact hfresh (Or.inr (hatt u (by rw [hphase]; rfl)).2)
  · cases a with
    | user u b =>
      cases b <;> simp only [sentBy, reduceCtorEq, Option.some.injEq] at hsent <;> subst hsent
      case sendTicket s => cases hr
      case sendRequest x k pid start =>
        have he : (w.users u).phase = .sendRequest x k pid start := ha.2
        have hserves := h.addressed u x.service k pid (by rw [he]; rfl)
        cases hr
        refine ⟨u, x, k, pid, start, by simp, ?_, rfl, rfl, hserves.keep ha (by simp)⟩
        simp [World.next, Utente.next]
    | oper o b =>
      cases b <;> simp only [sentBy, reduceCtorEq, Option.some.injEq] at hsent
      case reply k q time =>
        subst hsent
        cases hr
    | ticket b =>
      cases b <;> simp only [sentBy, reduceCtorEq, Option.some.injEq] at hsent
      case reply pid =>
        subst hsent
        cases hr
    | director b => cases hsent
    | «section» => cases hsent

theorem Staffed.addressed_step {site : Site O U} {as : List (Act O U)} {w : World O U}
    (h : Staffed site as w) {a : Act O U} (ha : w.Enabled site a) (hatt : Attended site w a)
    {u : U} {s : ServiceId} {k pid : ℕ}
    (hu : ((w.next site a).users u).phase.addressed = some (s, k, pid)) :
    ServesAt site (w.next site a) s k pid := by
  rcases PosteItaliane.addressed_step site ha hu with hold | ⟨x, rfl, he, rfl, rfl⟩
  · apply (h.addressed u s k pid hold).keep ha
    rintro o early rfl
    obtain ⟨hseat, hnotYet⟩ : (w.users u).phase.waitsAt = some k ∧ w.awaitedBy site u = none := by
      rw [World.awaitedBy]
      cases hphase : (w.users u).phase <;>
        simp only [hphase, Utente.Phase.addressed, reduceCtorEq, Option.some.injEq,
          Prod.mk.injEq] at hold
      all_goals
        obtain ⟨-, rfl, -⟩ := hold
        exact ⟨rfl, rfl⟩
    have hawaits := (hatt u hseat).1
    rw [hnotYet] at hawaits
    cases hawaits
  · have hocc : (w.sh.seats k).operatorStatus = .occupied := hatt
    obtain ⟨o, hpid, hseat⟩ := h.table.occupied hocc
    have huser := h.valid u x.service [k] (by rw [he]; rfl) k (by simp)
    have hoper := h.chosen o k (Operatore.Phase.chosenSeat_of_currentSeat hseat)
    have hserves : ServesAt site w x.service k (w.sh.seats k).operatorProcess :=
      ⟨o, hpid, hseat, hoper.symm.trans huser⟩
    exact hserves.keep ha (by simp)

theorem Staffed.step {site : Site O U} {as : List (Act O U)} {w : World O U}
    (h : Staffed site as w) {a : Act O U} (ha : w.Enabled site a) (hday : WithinDay w a)
    (hatt : Attended site w a) (hclean : StartsClean site w a) :
    Staffed site (as ++ [a]) (w.next site a) where
  table := h.table.step ha
  posted := by
    intro m hm
    rcases mem_queue_step site ha hm with hold | hsent
    · exact h.posted m hold
    · exact posted_of_sentBy hsent
  single := h.single_step ha hclean
  requests _ hm _ hr := h.requests_step ha hatt hclean hm hr
  addressed _ _ _ _ hu := h.addressed_step ha hatt hu
  valid := by
    intro u s valid hu k hk
    by_cases hreset : ∃ service, a = .director (.resetSeats service)
    · obtain ⟨service, rfl⟩ := hreset
      have hnone := Utente.Phase.validSeats_eq_none (hday.2 u)
      exact absurd (hnone.symm.trans hu) (by simp)
    · rw [serviceId_step site (not_exists.mp hreset)]
      rcases validSeats_step site ha hu with ⟨valid', hold, hsub⟩ | hnew
      · exact h.valid u s valid' hold k (hsub k hk)
      · exact hnew k hk
  chosen := by
    intro o k ho
    by_cases hreset : ∃ service, a = .director (.resetSeats service)
    · obtain ⟨service, rfl⟩ := hreset
      have hnone := Operatore.Phase.chosenSeat_eq_none (hday.1 o)
      exact absurd (hnone.symm.trans ho) (by simp)
    · rw [serviceId_step site (not_exists.mp hreset)]
      rcases chosenSeat_step site ha ho with hold | hnew
      · exact h.chosen o k hold
      · exact hnew

omit [DecidableEq O] in
theorem staffed_init (site : Site O U) : Staffed site [] (World.init site) where
  table := tablePresent_init site
  posted := by
    intro m hm
    cases hm
  single := by
    intro u
    have hnothing : ¬ (World.init site).OnTheWay (site.userPid u) := by
      simp [World.OnTheWay, World.init, Shared.init, World.heldBy, ErogatoreTicket.Phase.held,
        Operatore.Phase.held]
    rw [lettersTo_eq_zero hnothing]
    exact Nat.zero_le 1
  requests := by
    intro m hm
    cases hm
  addressed := by
    intro u s k pid hu
    by_cases h : u ∈ site.initialUsers <;> simp [World.init, h, Utente.Phase.addressed] at hu
  valid := by
    intro u s valid hu
    by_cases h : u ∈ site.initialUsers <;> simp [World.init, h, Utente.Phase.validSeats] at hu
  chosen := by
    intro o k ho
    cases ho

omit [DecidableEq O] [DecidableEq U] in
theorem Staffed.requestsStaffed {site : Site O U} {as : List (Act O U)} {w : World O U}
    (h : Staffed site as w) : RequestsStaffed site as w := by
  intro m hm r hr
  obtain ⟨u, x, k, pid, start, hmem, -, htype, hr', o, hpid, hseat, hservice⟩ :=
    h.requests m hm r hr
  exact ⟨u, x, k, pid, start, hmem, htype, hr', o, hpid, by rw [hseat]; rfl, hservice⟩

/-- As long as users read attended seats and start clean, and operators leave when every user
that waits at their seat is answered, every request in the queue is addressed to an operator
of its service who is serving. -/
theorem requests_staffed (site : Site O U) (as : List (Act O U))
    (h : ((poste site).restrict fun w a =>
      WithinDay w a ∧ Attended site w a ∧ StartsClean site w a).Runs (World.init site) as) :
    RequestsStaffed site as ((poste site).after (World.init site) as) := by
  have hinv := ((poste site).restrict fun w a =>
    WithinDay w a ∧ Attended site w a ∧ StartsClean site w a).trace_invariant
    (P := Staffed site) (staffed_init site)
    (fun as w a hw ha => hw.step ha.1 ha.2.1 ha.2.2.1 ha.2.2.2) as h
  exact hinv.requestsStaffed

theorem requests_staffed_office : RequestsStaffed office
    ((officeNight ++ officeDay) ++ officeRequest)
    ((poste office).after (World.init office) ((officeNight ++ officeDay) ++ officeRequest)) := by
  apply requests_staffed office _
  rw [GuardedSystem.runs_append, GuardedSystem.restrict_after, officeDay_after]
  refine ⟨officeDay_restrict ?_ (by decide) (by decide) (by decide), by decide⟩
  simp [quietMinute, WithinDay, Attended, StartsClean]

/-- A request is sent to the process id 0 of a seat that its operator has left. -/
theorem request_to_nobody : ¬ ∀ as : List (Act (Fin 2) (Fin 2)),
    ((poste office).restrict WithinDay).Runs (World.init office) as →
    RequestsStaffed office as ((poste office).after (World.init office) as) := by
  intro hstaffed
  have hday : ((poste office).restrict WithinDay).Runs (World.init office)
      ((officeNight ++ officeDay) ++ officeClosing) := by
    rw [GuardedSystem.runs_append, GuardedSystem.restrict_after, officeDay_after]
    refine ⟨officeDay_restrict ?_ (by decide) (by decide) (by decide), by decide⟩
    simp [quietMinute, WithinDay]
  have hclosing := hstaffed _ hday
  rw [GuardedSystem.after_append, officeDay_after] at hclosing
  obtain ⟨u, x, k, pid, start, -, htype, -, o, hpid, -⟩ :=
    hclosing ⟨30000, .serviceRequest ⟨29999, 0⟩⟩ (by decide) ⟨29999, 0⟩ rfl
  have hzero : pid = 0 := by
    simp only [serviceRequestType] at htype
    omega
  have hpos := office.operatorPid_pos o
  omega

end PosteItaliane
