import PosteItaliane.Proofs.Protocol
import PosteItaliane.Proofs.StatsConservation

/-!
# Requests and served users

An operator counts a request before it serves it, and the user counts the service after it
has received the answer. In between the session is at the operator, in the queue or at the
user, and when every answer reaches the user it is meant for, the two counters of a service
differ by exactly the sessions in between.
-/

namespace PosteItaliane

open Framework Framework.Mailbox

/-- The request is counted and not yet answered. -/
def Operatore.Phase.isProcessing : Operatore.Phase → Bool
  | .serve _ _ => true
  | .reply _ _ _ => true
  | _ => false

/-- The service of an answer, if the message is one. -/
def Message.doneService (m : Message) : Option ServiceId :=
  match m.body with
  | .serviceDone d => some d.serviceId
  | _ => none

/-- The service of an answer that was received and is not yet counted. -/
def Utente.Phase.unrecorded : Utente.Phase → Option ServiceId
  | .readEnd _ _ _ d => some d.serviceId
  | .countServed _ _ _ d => some d.serviceId
  | _ => none

theorem doneService_of_size {m : Message} (h : m.body.size ≤ 8) : m.doneService = none := by
  cases hbody : m.body with
  | serviceDone d =>
    rw [hbody] at h
    simp [Body.size] at h
  | _ => simp [Message.doneService, hbody]

variable {O U : Type} [Fintype O] [Fintype U] [DecidableEq O] [DecidableEq U]

/-- The service of the request an operator is processing. -/
def World.processedBy (site : Site O U) (w : World O U) (o : O) : Option ServiceId :=
  if (w.opers o).phase.isProcessing then some (site.userService o) else none

def World.unrecordedBy (w : World O U) (u : U) : Option ServiceId := (w.users u).phase.unrecorded

/-- The sessions for a service whose request is counted and whose answer is not. -/
def World.inProgress (site : Site O U) (w : World O U) (s : ServiceId) : ℕ :=
  total (w.processedBy site) s + tally Message.doneService w.sh.queue s + total w.unrecordedBy s

/-- The requests counted for a service are the served users and the sessions in progress. -/
def RequestsBalanced (site : Site O U) (w : World O U) (x : PosteStats) : Prop :=
  ∀ s, (x.simulationServices s).totalRequests =
    (x.simulationServices s).servedUsers + w.inProgress site s

def StatsOp.requested : StatsOp → Option ServiceId
  | .updateRequestsStats s => some s
  | _ => none

def StatsOp.served : StatsOp → Option ServiceId
  | .updateSuccessStats s _ _ => some s
  | _ => none

theorem totalRequests_op (op : StatsOp) (x : PosteStats) (s : ServiceId) :
    ((assignAll op.body x).simulationServices s).totalRequests =
      (x.simulationServices s).totalRequests + hit op.requested s := by
  cases op with
  | handleLateUsers beenLateToday t =>
    cases beenLateToday <;> simp [StatsOp.body, handleLateUsers, assignAll, Assignment.assign,
      StatsWrite.apply, StatsRecord.modify, modifyService_apply, Increment.apply, StatsOp.requested]
    split <;> rfl
  | _ =>
    simp [StatsOp.body, updateRequestsStats, updatePauseStats, updateActiveOperators,
      updateFailsStats, updateSuccessStats, resetDailyStats, publishMinute, assignAll,
      Assignment.assign, StatsWrite.apply, StatsRecord.modify, modifyService_apply,
      Increment.apply, StatsOp.requested, hit]
    try grind

theorem servedUsers_op (op : StatsOp) (x : PosteStats) (s : ServiceId) :
    ((assignAll op.body x).simulationServices s).servedUsers =
      (x.simulationServices s).servedUsers + hit op.served s := by
  cases op with
  | handleLateUsers beenLateToday t =>
    cases beenLateToday <;> simp [StatsOp.body, handleLateUsers, assignAll, Assignment.assign,
      StatsWrite.apply, StatsRecord.modify, modifyService_apply, Increment.apply, StatsOp.served]
    split <;> rfl
  | _ =>
    simp [StatsOp.body, updateRequestsStats, updatePauseStats, updateActiveOperators,
      updateFailsStats, updateSuccessStats, resetDailyStats, publishMinute, assignAll,
      Assignment.assign, StatsWrite.apply, StatsRecord.modify, modifyService_apply,
      Increment.apply, StatsOp.served, hit]
    try grind

/-- The section a step begins. -/
def statsOp (site : Site O U) (a : Act O U) : Option StatsOp :=
  match statsEvent site a with
  | some (.begin _ op) => some op
  | _ => none

theorem settled_step (site : Site O U) {w : World O U} {a : Act O U} (ha : w.Enabled site a) :
    (w.next site a).sh.stats.settled =
      (statsOp site a).elim w.sh.stats.settled fun op => assignAll op.body w.sh.stats.settled := by
  have hstep := stats_step site w a ha
  rw [statsOp]
  cases hev : statsEvent site a with
  | none =>
    rw [hev] at hstep
    rw [hstep]
    rfl
  | some e =>
    rw [hev] at hstep
    cases e with
    | begin p op =>
      rw [hstep.2]
      exact Monitor.settled_enter hstep.1 p op.body
    | advance =>
      rw [hstep.2]
      exact Monitor.settled_advance w.sh.stats

/-- The service whose requests a step counts. -/
def requestedBy (site : Site O U) (a : Act O U) : Option ServiceId :=
  (statsOp site a).bind StatsOp.requested

/-- The service whose served users a step counts. -/
def servedBy (site : Site O U) (a : Act O U) : Option ServiceId :=
  (statsOp site a).bind StatsOp.served

theorem totalRequests_step (site : Site O U) {w : World O U} {a : Act O U}
    (ha : w.Enabled site a) (s : ServiceId) :
    ((w.next site a).sh.stats.settled.simulationServices s).totalRequests =
      (w.sh.stats.settled.simulationServices s).totalRequests + hit (requestedBy site a) s := by
  rw [settled_step site ha, requestedBy]
  cases statsOp site a with
  | none => simp
  | some op => exact totalRequests_op op _ s

theorem servedUsers_step (site : Site O U) {w : World O U} {a : Act O U}
    (ha : w.Enabled site a) (s : ServiceId) :
    ((w.next site a).sh.stats.settled.simulationServices s).servedUsers =
      (w.sh.stats.settled.simulationServices s).servedUsers + hit (servedBy site a) s := by
  rw [settled_step site ha, servedBy]
  cases statsOp site a with
  | none => simp
  | some op => exact servedUsers_op op _ s

/-- The service an operator answers for. -/
def answeredBy (site : Site O U) : Act O U → Option ServiceId
  | .oper o (.reply _ _ _) => some (site.userService o)
  | _ => none

/-- The service of the answer a step receives. -/
def doneReceived (a : Act O U) : Option ServiceId := (receivedBy a).bind Message.doneService

omit [DecidableEq O] [DecidableEq U] in
theorem isProcessing_keep (site : Site O U) {w : World O U} {o : O} {b : Operatore.Act}
    (he : Operatore.Enabled site o (w.opers o) w.sh b) (hrel : Reliable (.oper o b : Act O U))
    (hrequested : requestedBy site (.oper o b) = none)
    (hanswered : answeredBy site (.oper o b) = none) :
    (Operatore.next site o (w.opers o) w.sh b).1.phase.isProcessing =
      (w.opers o).phase.isProcessing := by
  cases b
  case countRequest k q => cases hrequested
  case reply k q time => cases hanswered
  case replyFails k q time => exact hrel.elim
  all_goals
    simp only [Operatore.Enabled] at he
    simp only [Operatore.next]
    grind [Operatore.Phase.isProcessing]

theorem processed_step (site : Site O U) {w : World O U} {a : Act O U} (ha : w.Enabled site a)
    (hrel : Reliable a) (s : ServiceId) :
    total ((w.next site a).processedBy site) s + hit (answeredBy site a) s =
      total (w.processedBy site) s + hit (requestedBy site a) s := by
  cases a with
  | oper o b =>
    have hnext : (w.next site (.oper o b)).processedBy site =
        Function.update (w.processedBy site) o
          (if (Operatore.next site o (w.opers o) w.sh b).1.phase.isProcessing
            then some (site.userService o) else none) :=
      opers_next (fun p l => if l.phase.isProcessing then some (site.userService p) else none)
        site w o b
    have htotal := total_update (w.processedBy site) o
      (if (Operatore.next site o (w.opers o) w.sh b).1.phase.isProcessing
        then some (site.userService o) else none) s
    rw [hnext]
    obtain ⟨-, he⟩ := ha
    have hquiet (hrequested : requestedBy site (.oper o b) = none)
        (hanswered : answeredBy site (.oper o b) = none) :
        total (Function.update (w.processedBy site) o
            (if (Operatore.next site o (w.opers o) w.sh b).1.phase.isProcessing
              then some (site.userService o) else none)) s +
          hit (answeredBy site (.oper o b)) s =
        total (w.processedBy site) s + hit (requestedBy site (.oper o b)) s := by
      rw [hrequested, hanswered, hit_none]
      rw [isProcessing_keep site he hrel hrequested hanswered] at htotal ⊢
      exact Nat.add_right_cancel htotal
    cases b
    case countRequest k q =>
      have hold : w.processedBy site o = none := by
        simp [World.processedBy, he.1, Operatore.Phase.isProcessing]
      rw [hold] at htotal
      exact htotal
    case reply k q time =>
      have he : (w.opers o).phase = .reply k q time := he
      have hold : w.processedBy site o = some (site.userService o) := by
        simp [World.processedBy, he, Operatore.Phase.isProcessing]
      rw [hold] at htotal
      exact htotal
    case replyFails k q time => exact hrel.elim
    all_goals exact hquiet rfl rfl
  | user u b => cases b <;> rfl
  | ticket b => rfl
  | director b => cases b <;> rfl
  | «section» => rfl

theorem done_step (site : Site O U) {w : World O U} {a : Act O U} (ha : w.Enabled site a)
    (s : ServiceId) :
    tally Message.doneService (w.next site a).sh.queue s + hit (doneReceived a) s =
      tally Message.doneService w.sh.queue s + hit (answeredBy site a) s := by
  have hstep := queue_step site ha
  cases hreceived : receivedBy a with
  | some m =>
    rw [hreceived] at hstep
    have hanswered : answeredBy site a = none := by
      cases a with
      | oper o b => cases b <;> first | rfl | cases hreceived
      | _ => rfl
    have htally := tally_receive hstep.1 Message.doneService s
    rw [hstep.2, doneReceived, hreceived, hanswered, hit_none]
    exact htally.symm
  | none =>
    rw [hreceived] at hstep
    have hsent : answeredBy site a = (sentBy site w a).bind Message.doneService := by
      cases a with
      | oper o b => cases b <;> rfl
      | user u b => cases b <;> rfl
      | ticket b => cases b <;> rfl
      | director b => rfl
      | «section» => rfl
    rw [hstep, doneReceived, hreceived, hsent]
    cases sentBy site w a with
    | none => simp
    | some m => exact tally_send Message.doneService w.sh.queue m s

omit [DecidableEq O] [DecidableEq U] in
theorem Letters.done_of_received {site : Site O U} (hpids : PidsApart site) {w : World O U}
    (h : Letters site w) {u : U} {x : Utente.Session} {k : ℕ} {start : ℤ} {m : Message}
    {d : ServiceDone} (hu : (w.users u).phase = .awaitDone x k start) (hm : m ∈ w.sh.queue)
    (ht : m.mtype = site.userPid u) (hread : m.body.ReadsAsDone d) :
    m.doneService = some d.serviceId ∧ ¬ d.ticketNumber < 0 := by
  have hletter := h.letter_of_user hpids hm ht
  rw [World.awaitedBy, hu] at hletter
  have hnonneg := h.tickets u x (by rw [hu]; rfl)
  cases hbody : m.body with
  | ticketRequest r => simp [Utente.Phase.awaited, Message.letter, hbody] at hletter
  | ticketResponse r => simp [Utente.Phase.awaited, Message.letter, hbody] at hletter
  | serviceRequest r => exact absurd ht (((h.typed m hm).serviceRequest r hbody).2 u)
  | serviceDone d' =>
    rw [hbody] at hread
    have hd : d' = d := hread
    subst d'
    have hticket : x.ticket = d.ticketNumber := by
      simp only [Utente.Phase.awaited, Message.letter, hbody, Option.some.injEq,
        Letter.service.injEq] at hletter
      exact hletter.2
    refine ⟨by simp [Message.doneService, hbody], ?_⟩
    omega

omit [DecidableEq O] [DecidableEq U] in
theorem unrecorded_keep (site : Site O U) {w : World O U} {u : U} {b : Utente.Act}
    (he : Utente.Enabled site u (w.users u) w.sh b)
    (hserved : servedBy site (.user u b) = none)
    (hreceived : receivedBy (.user u b : Act O U) = none) :
    (Utente.next site u (w.users u) w.sh b).1.phase.unrecorded = w.unrecordedBy u := by
  cases b
  case receiveTicket s m => cases hreceived
  case receiveDone x k start m d => cases hreceived
  case countServed x k wait d => cases hserved
  case sleepOn walkIn => rfl
  all_goals
    simp only [Utente.Enabled] at he
    simp only [World.unrecordedBy, Utente.next]
    grind [Utente.Phase.unrecorded]

theorem unrecorded_step {site : Site O U} (hpids : PidsApart site) {w : World O U}
    (h : Letters site w) {a : Act O U} (ha : w.Enabled site a) (s : ServiceId) :
    total (w.next site a).unrecordedBy s + hit (servedBy site a) s =
      total w.unrecordedBy s + hit (doneReceived a) s := by
  cases a with
  | user u b =>
    have hnext : (w.next site (.user u b)).unrecordedBy = Function.update w.unrecordedBy u
        (Utente.next site u (w.users u) w.sh b).1.phase.unrecorded :=
      users_next (fun _ l => l.phase.unrecorded) site w u b
    have htotal := total_update w.unrecordedBy u
      (Utente.next site u (w.users u) w.sh b).1.phase.unrecorded s
    rw [hnext]
    obtain ⟨-, he⟩ := ha
    have hquiet (hserved : servedBy site (.user u b) = none)
        (hreceived : receivedBy (.user u b : Act O U) = none) :
        total (Function.update w.unrecordedBy u
            (Utente.next site u (w.users u) w.sh b).1.phase.unrecorded) s +
          hit (servedBy site (.user u b)) s =
        total w.unrecordedBy s + hit (doneReceived (.user u b : Act O U)) s := by
      rw [hserved, doneReceived, hreceived, Option.bind_none, hit_none]
      rw [unrecorded_keep site he hserved hreceived] at htotal ⊢
      exact Nat.add_right_cancel htotal
    cases b
    case receiveDone x k start m d =>
      obtain ⟨hmem, htype⟩ := firstOfType_eq_some he.2.1
      obtain ⟨hdone, hneg⟩ := h.done_of_received hpids he.1 hmem htype he.2.2
      have hold : w.unrecordedBy u = none := by
        rw [World.unrecordedBy, he.1]
        rfl
      have hnew :
          (Utente.next site u (w.users u) w.sh (.receiveDone x k start m d)).1.phase.unrecorded
            = m.doneService := by
        rw [hdone]
        simp [Utente.next, hneg, Utente.Phase.unrecorded]
      rw [hold, hnew] at htotal
      rw [hnew]
      exact htotal
    case receiveTicket t m =>
      have hdone : doneReceived (.user u (.receiveTicket t m) : Act O U) = none :=
        doneService_of_size he.2.2
      have hold : w.unrecordedBy u = none := by
        rw [World.unrecordedBy, he.1]
        rfl
      have hnew : (Utente.next site u (w.users u) w.sh (.receiveTicket t m)).1.phase.unrecorded
          = none := by
        simp only [Utente.next]
        split <;> rfl
      rw [hold, hnew] at htotal
      rw [hnew, hdone]
      exact htotal
    case countServed x k wait d =>
      have hold : w.unrecordedBy u = some d.serviceId := by
        rw [World.unrecordedBy, he.1]
        rfl
      rw [hold] at htotal
      exact htotal
    all_goals exact hquiet rfl rfl
  | oper o b =>
    cases b <;> try rfl
    case receive k m =>
      have hdone : doneReceived (.oper o (.receive k m) : Act O U) = none :=
        doneService_of_size ha.2.2.2
      rw [hdone]
      rfl
  | ticket b =>
    cases b <;> try rfl
    case receive m =>
      have hdone : doneReceived (.ticket (.receive m) : Act O U) = none :=
        doneService_of_size ha.2.2
      rw [hdone]
      rfl
  | director b =>
    have hnext : (w.next site (.director b)).unrecordedBy = w.unrecordedBy :=
      funext (users_director (fun _ p => p.unrecorded) (fun _ => rfl) site ha.2.2)
    rw [hnext]
    cases b <;> rfl
  | «section» => rfl

theorem inProgress_step {site : Site O U} (hpids : PidsApart site) {w : World O U}
    (h : Letters site w) {a : Act O U} (ha : w.Enabled site a) (hrel : Reliable a)
    (s : ServiceId) :
    (w.next site a).inProgress site s + hit (servedBy site a) s =
      w.inProgress site s + hit (requestedBy site a) s := by
  have hprocessed := processed_step site ha hrel s
  have hdone := done_step site ha s
  have hunrecorded := unrecorded_step hpids h ha s
  simp only [World.inProgress]
  omega

theorem RequestsBalanced.step {site : Site O U} (hpids : PidsApart site) {w : World O U}
    (h : RequestsBalanced site w w.sh.stats.settled) (hletters : Letters site w) {a : Act O U}
    (ha : w.Enabled site a) (hrel : Reliable a) :
    RequestsBalanced site (w.next site a) (w.next site a).sh.stats.settled := by
  intro s
  have hold := h s
  have hprogress := inProgress_step hpids hletters ha hrel s
  rw [totalRequests_step site ha, servedUsers_step site ha]
  omega

omit [DecidableEq O] in
theorem requestsBalanced_init (site : Site O U) :
    RequestsBalanced site (World.init site) (World.init site).sh.stats.settled := by
  intro s
  have hprocessed (o : O) : (World.init site).processedBy site o ≠ some s := by
    simp [World.processedBy, World.init, Operatore.Phase.isProcessing]
  have hunrecorded (u : U) : (World.init site).unrecordedBy u ≠ some s := by
    by_cases h : u ∈ site.initialUsers <;>
      simp [World.unrecordedBy, World.init, h, Utente.Phase.unrecorded]
  rw [World.inProgress, total_eq_zero hprocessed, total_eq_zero hunrecorded]
  rfl

/-- If no call on the queue fails and no request to the process id 0 reaches a user, then
whenever `stats_lock` is free the counters of a service differ by its sessions in progress. -/
theorem requests_balanced (site : Site O U) (hpids : PidsApart site) (as : List (Act O U))
    (h : ((poste site).restrict fun _ a => Reliable a ∧ NotToUser site a).Runs
      (World.init site) as)
    (hfree : ((poste site).after (World.init site) as).sh.stats.Free) :
    RequestsBalanced site ((poste site).after (World.init site) as)
      ((poste site).after (World.init site) as).sh.stats.value := by
  have hinv := ((poste site).restrict fun _ a => Reliable a ∧ NotToUser site a).invariant
    (P := fun w => Letters site w ∧ RequestsBalanced site w w.sh.stats.settled)
    ⟨letters_init site, requestsBalanced_init site⟩
    (fun w a hw ha => ⟨hw.1.step hpids ha.1 ha.2.1 ha.2.2, hw.2.step hpids hw.1 ha.1 ha.2.1⟩) as h
  rw [GuardedSystem.restrict_after] at hinv
  rw [← Monitor.settled_of_free hfree]
  exact hinv.2

instance (site : Site O U) (a : Act O U) : Decidable (NotToUser site a) := by
  rcases a with _ | ⟨u, b⟩ | _
  case user => rcases b with _ | _ <;> (dsimp only [NotToUser]; infer_instance)
  all_goals exact isTrue trivial

theorem requests_balanced_office : RequestsBalanced office
    ((poste office).after (World.init office)
      ((officeNight ++ officeDay) ++ (officeRequest ++ officeService)))
    ((poste office).after (World.init office)
      ((officeNight ++ officeDay) ++ (officeRequest ++ officeService))).sh.stats.value := by
  refine requests_balanced office office_pidsApart _ ?_ ?_
  · rw [GuardedSystem.runs_append, GuardedSystem.restrict_after, officeDay_after]
    refine ⟨officeDay_restrict ?_ (by decide) (by decide) (by decide), by decide +kernel⟩
    simp [quietMinute, Reliable, NotToUser]
  · rw [GuardedSystem.after_append, officeDay_after]
    decide

/-- User 1 takes the request of user 0 for the answer to its own. -/
def requestMisread : List (Act (Fin 2) (Fin 2)) :=
  let d : ServiceDone := ⟨29999, 0, 0, 0⟩
  [.user 1 (.receiveDone ⟨0, 1⟩ 0 1201 ⟨30000, .serviceRequest ⟨29999, 0⟩⟩ d),
    .user 1 (.readEnd ⟨0, 1⟩ 0 1201 d), .user 1 (.countServed ⟨0, 1⟩ 0 0 d)] ++
  List.replicate 13 .section

/-- A service is counted as rendered whose request nobody has counted. -/
theorem served_without_request : PidsApart office ∧
    ¬ ∀ as : List (Act (Fin 2) (Fin 2)), (poste office).Runs (World.init office) as →
      (∀ a ∈ as, Reliable a) → ((poste office).after (World.init office) as).sh.stats.Free →
      RequestsBalanced office ((poste office).after (World.init office) as)
        ((poste office).after (World.init office) as).sh.stats.value := by
  refine ⟨office_pidsApart, fun hbalanced => ?_⟩
  have hbalance := hbalanced ((officeNight ++ officeWait) ++
    (officeTickets ++ (officeClosing ++ requestMisread))) ?_ ?_ ?_ 0
  · rw [GuardedSystem.after_append, officeWait_after] at hbalance
    have hserved : (((poste office).after officeBeforeClosing
        (officeTickets ++ (officeClosing ++ requestMisread))).sh.stats.value.simulationServices
        0).servedUsers = 1 := by decide
    have htotal : (((poste office).after officeBeforeClosing
        (officeTickets ++ (officeClosing ++ requestMisread))).sh.stats.value.simulationServices
        0).totalRequests = 0 := by decide
    omega
  · rw [GuardedSystem.runs_append, officeWait_after]
    exact ⟨officeWait_runs, by decide +kernel⟩
  · intro a ha
    rcases List.mem_append.mp ha with ha | ha
    · exact officeWait_reliable a ha
    · exact (by decide : ∀ a ∈ officeTickets ++ (officeClosing ++ requestMisread), Reliable a) a ha
  · rw [GuardedSystem.after_append, officeWait_after]
    decide

end PosteItaliane
