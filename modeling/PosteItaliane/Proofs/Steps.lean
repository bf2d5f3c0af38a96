import PosteItaliane.Proofs.SeatTable

/-!
# What one step changes

A step changes the local state of at most one process, sends at most one message or
receives one, and changes the services of the seats only at midnight.
-/

namespace PosteItaliane

open Framework

variable {O U : Type} [Fintype O] [Fintype U] [DecidableEq O] [DecidableEq U]

theorem oper_step (site : Site O U) {w : World O U} {a : Act O U} (ha : w.Enabled site a) (o : O) :
    (w.next site a).opers o = w.opers o ∨ ∃ b, a = .oper o b ∧
      Operatore.Enabled site o (w.opers o) w.sh b ∧
      (w.next site a).opers o = (Operatore.next site o (w.opers o) w.sh b).1 := by
  cases a with
  | oper p b =>
    by_cases hp : o = p
    · subst o
      exact Or.inr ⟨b, rfl, ha.2, by simp [World.next]⟩
    · exact Or.inl (by simp [World.next, hp])
  | user u b => exact Or.inl rfl
  | ticket b => exact Or.inl rfl
  | director b => exact Or.inl rfl
  | «section» => exact Or.inl rfl

/-- A user either takes the step, is created by it, or is as before. -/
theorem user_step (site : Site O U) {w : World O U} {a : Act O U} (ha : w.Enabled site a) (u : U) :
    (w.next site a).users u = w.users u ∨
    (∃ b, a = .user u b ∧ Utente.Enabled site u (w.users u) w.sh b ∧
      (w.next site a).users u = (Utente.next site u (w.users u) w.sh b).1) ∨
    ∃ n, a = .director (.startUser u n) ∧ (w.users u).phase = .notStarted ∧
      (w.next site a).users u = { w.users u with phase := .boot } := by
  cases a with
  | oper o b => exact Or.inl rfl
  | user v b =>
    by_cases hv : u = v
    · subst u
      exact Or.inr (Or.inl ⟨b, rfl, ha.2, by simp [World.next]⟩)
    · exact Or.inl (by simp [World.next, hv])
  | ticket b => exact Or.inl rfl
  | director b =>
    cases b <;> try exact Or.inl rfl
    case startUser v n =>
      by_cases hv : u = v
      · subst u
        exact Or.inr (Or.inr ⟨n, rfl, ha.2.2, by simp [World.next, World.usersAfter]⟩)
      · exact Or.inl (by simp [World.next, World.usersAfter, hv])
  | «section» => exact Or.inl rfl

/-- The message a step sends. -/
def sentBy (site : Site O U) (w : World O U) : Act O U → Option Message
  | .user u (.sendTicket s) => some ⟨msgTypeTicketRequest, .ticketRequest ⟨site.userPid u, s⟩⟩
  | .user u (.sendRequest x _ op _) =>
    some ⟨serviceRequestType op, .serviceRequest ⟨site.userPid u, x.ticket⟩⟩
  | .oper o (.reply _ q time) => some ⟨q.senderPid, .serviceDone
      ⟨site.operatorPid o, q.ticketNumber, site.userService o, time⟩⟩
  | .ticket (.reply pid) =>
    some ⟨pid, .ticketResponse ⟨site.ticketPid, w.ticket.ticketCounter⟩⟩
  | _ => none

/-- The message a step receives. -/
def receivedBy : Act O U → Option Message
  | .user _ (.receiveTicket _ m) => some m
  | .user _ (.receiveDone _ _ _ m _) => some m
  | .oper _ (.receive _ m) => some m
  | .ticket (.receive m) => some m
  | _ => none

theorem queue_step (site : Site O U) {w : World O U} {a : Act O U} (ha : w.Enabled site a) :
    match receivedBy a with
    | some m => firstOfType w.sh.queue m.mtype = some m ∧
        (w.next site a).sh.queue = afterReceive w.sh.queue m.mtype
    | none => (w.next site a).sh.queue = w.sh.queue ++ (sentBy site w a).toList := by
  have hreceive {t : ℕ} {m : Message} (h : firstOfType w.sh.queue t = some m) :
      firstOfType w.sh.queue m.mtype = some m ∧
        afterReceive w.sh.queue t = afterReceive w.sh.queue m.mtype := by
    obtain ⟨-, ht⟩ := firstOfType_eq_some h
    subst t
    exact ⟨h, rfl⟩
  have hkeep (q : List Message) : q = q ++ (none : Option Message).toList := by simp
  cases a with
  | user u b =>
    cases b <;> try exact hkeep _
    case sendTicket s => rfl
    case sendRequest x k op start => rfl
    case receiveTicket s m => exact hreceive ha.2.2.1
    case receiveDone x k start m d => exact hreceive ha.2.2.1
  | oper o b =>
    cases b <;> try exact hkeep _
    case receive k m => exact hreceive ha.2.2.1
    case reply k q time => rfl
  | ticket b =>
    cases b <;> try exact hkeep _
    case receive m => exact hreceive ha.2.1
    case reply pid => rfl
  | director b => cases b <;> exact hkeep _
  | «section» => exact hkeep _

theorem mem_queue_step (site : Site O U) {w : World O U} {a : Act O U} (ha : w.Enabled site a)
    {m : Message} (hm : m ∈ (w.next site a).sh.queue) :
    m ∈ w.sh.queue ∨ sentBy site w a = some m := by
  have hstep := queue_step site ha
  cases hr : receivedBy a with
  | some m' =>
    rw [hr] at hstep
    rw [hstep.2] at hm
    exact Or.inl (mem_of_mem_afterReceive hm)
  | none =>
    rw [hr] at hstep
    rw [hstep, List.mem_append, Option.mem_toList] at hm
    exact hm

theorem serviceId_step (site : Site O U) {w : World O U} {a : Act O U}
    (hday : ∀ service, a ≠ .director (.resetSeats service)) (k : ℕ) :
    ((w.next site a).sh.seats k).serviceId = (w.sh.seats k).serviceId := by
  cases a with
  | oper o b =>
    cases b <;> first | rfl | exact takeSeat_serviceId _ k | exact releaseSeat_serviceId k
  | user u b =>
    cases b <;> first | rfl | exact takeUserSeat_serviceId k | exact releaseUserSeat_serviceId k
  | ticket b => cases b <;> rfl
  | director b =>
    cases b <;> try rfl
    case resetSeats service => exact absurd rfl (hday service)
  | «section» => rfl

/-- Who sits at a seat sits there after every step but its own `release_seat`. -/
theorem currentSeat_step (site : Site O U) {w : World O U} {a : Act O U} (ha : w.Enabled site a)
    {o : O} {k : ℕ} (h : w.currentSeat o = some k) :
    (w.next site a).currentSeat o = some k ∨ ∃ early, a = .oper o (.release k early) := by
  rcases oper_step site ha o with ho | ⟨b, rfl, he, ho⟩
  · left
    rw [World.currentSeat, ho]
    exact h
  · rw [World.currentSeat, ho]
    rw [World.currentSeat] at h
    cases b
    case release j early =>
      have he : (w.opers o).phase = .release j early := he
      rw [he] at h
      cases h
      exact Or.inr ⟨early, rfl⟩
    all_goals
      left
      simp only [Operatore.Enabled] at he
      simp only [Operatore.next]
      grind [Operatore.Phase.currentSeat]

end PosteItaliane
