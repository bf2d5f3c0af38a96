import PosteItaliane.Framework.Fairness
import PosteItaliane.Proofs.Protocol
import PosteItaliane.Proofs.RecordedTimes
import PosteItaliane.Proofs.Sections

/-!
# Every ticket and every service comes

What goes on for ever, and not only what never goes wrong. A user that waits for its ticket
has a place in the line of the dispenser, and nobody can be served twice before it; a request
that an operator has taken comes back as a `service_done`, whatever the other processes do
with `stats_lock` in the meantime. The answer is then taken by the user it is for.
-/

namespace PosteItaliane

open Framework Framework.Mailbox

variable {O U : Type} [Fintype O] [Fintype U] [DecidableEq O] [DecidableEq U]

/-- The simulation in which no call on the ticket queue fails. -/
def posteReliable (site : Site O U) : GuardedSystem (World O U) (Act O U) :=
  (poste site).restrict fun _ a => Reliable a ∧ NotToUser site a

theorem posteReliable_after (site : Site O U) (w : World O U) (as : List (Act O U)) :
    (posteReliable site).after w as = (poste site).after w as := rfl

/-- The letters, a dispenser that goes on, and users that wait outside of `stats_lock`. -/
structure ServiceKept (site : Site O U) (w : World O U) : Prop where
  letters : Letters site w
  running : w.ticket.phase ≠ .stopped
  outside : ∀ u, w.sh.stats.inside = some (.utente u) → w.awaitedBy site u = none

omit [Fintype O] [Fintype U] [DecidableEq O] [DecidableEq U] in
theorem holder_of_inside {w : World O U} {p : Proc O U} (h : w.sh.stats.inside = some p) :
    ∃ ws, w.sh.stats.holder = some (p, ws) := by
  obtain ⟨⟨q, ws⟩, hholder, rfl⟩ := Option.map_eq_some_iff.mp h
  exact ⟨ws, hholder⟩

omit [Fintype O] [Fintype U] [DecidableEq O] [DecidableEq U] in
theorem inside_of_holder {w : World O U} {p : Proc O U} {ws : List StatsWrite}
    (h : w.sh.stats.holder = some (p, ws)) : w.sh.stats.inside = some p := by
  rw [Monitor.inside, h]
  rfl

theorem awaited_of_begin (site : Site O U) {w : World O U} {a : Act O U} {u : U} {op : StatsOp}
    (h : statsEvent site a = some (.begin (.utente u) op)) :
    (w.next site a).awaitedBy site u = none := by
  cases a with
  | user v b =>
    cases b <;> simp only [statsEvent, reduceCtorEq, Option.some.injEq, Monitor.Event.begin.injEq,
      Proc.utente.injEq] at h
    case countServed x k wait d =>
      obtain ⟨rfl, -⟩ := h
      simp [World.awaitedBy, World.next, Utente.next, Utente.Phase.awaited]
    case countLate beenLate s seat fails leaves =>
      obtain ⟨rfl, -⟩ := h
      cases fails <;> simp [World.awaitedBy, World.next, Utente.next, Utente.Phase.awaited]
    case countFailed s seat leaves =>
      obtain ⟨rfl, -⟩ := h
      simp [World.awaitedBy, World.next, Utente.next, Utente.Phase.awaited]
  | oper o b => cases b <;> simp [statsEvent] at h
  | ticket b => cases h
  | director b => cases b <;> simp [statsEvent] at h
  | «section» => cases h

theorem ServiceKept.step {site : Site O U} (hpids : PidsApart site) {w : World O U}
    (h : ServiceKept site w) {a : Act O U} (ha : (posteReliable site).Enabled w a) :
    ServiceKept site (w.next site a) where
  letters := h.letters.step hpids ha.1 ha.2.1 ha.2.2
  running := by
    obtain ⟨-, hrel, -⟩ := ha
    cases a with
    | ticket b =>
      cases b with
      | receiveFails => exact hrel.elim
      | interrupted => exact hrel.elim
      | replyFails pid => exact hrel.elim
      | receive m => exact ErogatoreTicket.Phase.noConfusion
      | reply pid => exact ErogatoreTicket.Phase.noConfusion
      | count => exact ErogatoreTicket.Phase.noConfusion
    | _ => exact h.running
  outside := by
    intro u hinside
    obtain ⟨ws, hholder⟩ := holder_of_inside hinside
    have hbefore {vs : List StatsWrite} (hold : w.sh.stats.holder = some (.utente u, vs)) :
        (w.next site a).awaitedBy site u = none := by
      have hin := inside_of_holder hold
      have hnone := h.outside u hin
      rcases user_step site ha.1 u with hu | ⟨b, rfl, -, -⟩ | ⟨n, rfl, -, hu⟩
      · rwa [World.awaitedBy, hu]
      · exact absurd hin ha.1.1
      · rw [World.awaitedBy, hu]
        rfl
    rcases holder_step site ha.1 hholder with hold | ⟨e, hold⟩ | ⟨op, hev, -⟩
    · exact hbefore hold
    · exact hbefore hold
    · exact awaited_of_begin site hev

omit [DecidableEq O] in
theorem serviceKept_init (site : Site O U) : ServiceKept site (World.init site) where
  letters := letters_init site
  running := ErogatoreTicket.Phase.noConfusion
  outside u h := by cases h

/-- A message for the user is in the queue. -/
def World.AnswerWaits (site : Site O U) (w : World O U) (u : U) : Prop :=
  ∃ m ∈ w.sh.queue, m.mtype = site.userPid u

theorem answerWaits_step {site : Site O U} (hpids : PidsApart site) {w : World O U} {a : Act O U}
    (ha : w.Enabled site a) {u : U} (hother : ∀ b, a ≠ .user u b) (h : w.AnswerWaits site u) :
    (w.next site a).AnswerWaits site u := by
  obtain ⟨m, hm, htype⟩ := h
  refine ⟨m, ?_, htype⟩
  have hstep := queue_step site ha
  cases hreceived : receivedBy a with
  | none =>
    rw [hreceived] at hstep
    rw [hstep]
    exact List.mem_append_left _ hm
  | some m' =>
    rw [hreceived] at hstep
    obtain ⟨hfirst, hqueue⟩ := hstep
    have hne : m.mtype ≠ m'.mtype := by
      rw [htype]
      intro hsame
      cases a with
      | user v b =>
        cases b <;> simp only [receivedBy, reduceCtorEq, Option.some.injEq] at hreceived
        case receiveTicket s m'' =>
          subst hreceived
          have hv := site.userPid_injective (hsame.trans (firstOfType_eq_some ha.2.2.1).2)
          exact hother _ (by rw [hv])
        case receiveDone x k start m'' d =>
          subst hreceived
          have hv := site.userPid_injective (hsame.trans (firstOfType_eq_some ha.2.2.1).2)
          exact hother _ (by rw [hv])
      | oper o b =>
        cases b <;> simp only [receivedBy, reduceCtorEq, Option.some.injEq] at hreceived
        case receive k m'' =>
          subst hreceived
          exact hpids.operator u o (hsame.trans (firstOfType_eq_some ha.2.2.1).2)
      | ticket b =>
        cases b <;> simp only [receivedBy, reduceCtorEq, Option.some.injEq] at hreceived
        case receive m'' =>
          subst hreceived
          exact hpids.dispenser u (hsame.trans (firstOfType_eq_some ha.2.1).2)
      | director b => cases hreceived
      | «section» => cases hreceived
    rw [hqueue]
    exact (List.mem_eraseP_of_neg (by simpa using hne)).mpr hm

/-- What a user that waits comes to when it is answered. -/
def Utente.Phase.Answered : Utente.Phase → Utente.Phase → Prop
  | .awaitTicket s, now => ∃ n : ℤ, now = if n < 0 then .services else .findSeats ⟨s, n⟩
  | .awaitDone x k start, now => ∃ d, d.ticketNumber = x.ticket ∧ now = .readEnd x k start d
  | _, _ => False

theorem answered_of_user {site : Site O U} (hpids : PidsApart site) {w : World O U}
    (h : ServiceKept site w) {u : U} {b : Utente.Act} (ha : w.Enabled site (.user u b))
    (hrel : Reliable (.user u b : Act O U)) (hwait : w.awaitedBy site u ≠ none) :
    (w.users u).phase.Answered ((w.next site (.user u b)).users u).phase ∧
      w.AnswerWaits site u := by
  have hnext : (w.next site (.user u b)).users u = (Utente.next site u (w.users u) w.sh b).1 := by
    simp [World.next]
  rw [hnext]
  obtain ⟨-, he⟩ := ha
  simp only [World.awaitedBy] at hwait
  cases hphase : (w.users u).phase <;> simp only [hphase, Utente.Phase.awaited, ne_eq, not_true,
    reduceCtorEq, not_false_eq_true] at hwait
  case awaitTicket s =>
    cases b <;> simp only [Utente.Enabled, hphase, reduceCtorEq, false_and, or_self] at he
    case receiveTicket s' m =>
      obtain ⟨hs, hfirst, -⟩ := he
      cases hs
      obtain ⟨hm, htype⟩ := firstOfType_eq_some hfirst
      exact ⟨⟨Utente.readTicket m, rfl⟩, m, hm, htype⟩
    case receiveTicketFails s' => exact hrel.elim
  case awaitDone x k start =>
    cases b <;> simp only [Utente.Enabled, hphase, reduceCtorEq, false_and, or_self] at he
    case receiveDone x' k' start' m d =>
      obtain ⟨hx, hfirst, hreads⟩ := he
      cases hx
      obtain ⟨hm, htype⟩ := firstOfType_eq_some hfirst
      have hletter := h.letters.letter_of_user hpids hm htype
      rw [World.awaitedBy, hphase] at hletter
      have hticket := h.letters.tickets u x (by rw [hphase]; rfl)
      obtain ⟨mtype, body⟩ := m
      cases body with
      | ticketRequest r => cases hletter
      | ticketResponse r => cases hletter
      | serviceRequest r =>
        exact absurd htype (((h.letters.typed _ hm).serviceRequest r rfl).2 u)
      | serviceDone d' =>
        have hd : d' = d := hreads
        subst d'
        have hnumber : x.ticket = d.ticketNumber := (Letter.service.inj (Option.some.inj hletter)).2
        refine ⟨⟨d, hnumber.symm, ?_⟩, _, hm, htype⟩
        simp only [Utente.next]
        rw [if_neg (by omega)]
    case receiveDoneFails x' k' start' => exact hrel.elim

/-- The receives of a user. -/
def Act.ReceivesFor (u : U) : Act O U → Prop
  | .user v (.receiveTicket _ _) | .user v (.receiveDone _ _ _ _ _) => v = u
  | _ => False

omit [Fintype O] [Fintype U] [DecidableEq O] [DecidableEq U] in
theorem user_of_receivesFor {u : U} {a : Act O U} (h : Act.ReceivesFor u a) :
    ∃ b, a = .user u b := by
  cases a with
  | user v b =>
    cases b <;> first
      | exact h.elim
      | (obtain rfl : v = u := h
         exact ⟨_, rfl⟩)
  | _ => exact h.elim

theorem receive_canTake {site : Site O U} (hpids : PidsApart site) {w : World O U}
    (h : ServiceKept site w) {u : U} (hwait : w.awaitedBy site u ≠ none)
    (hanswer : w.AnswerWaits site u) : (posteReliable site).CanTake (Act.ReceivesFor u) w := by
  obtain ⟨m', hm', htype'⟩ := hanswer
  have hsome : (firstOfType w.sh.queue (site.userPid u)).isSome := by
    rw [firstOfType, List.find?_isSome]
    exact ⟨m', hm', by simpa using htype'⟩
  obtain ⟨m, hfirst⟩ := Option.isSome_iff_exists.mp hsome
  obtain ⟨hm, htype⟩ := firstOfType_eq_some hfirst
  have hout : w.sh.stats.inside ≠ some (.utente u) := fun hin => hwait (h.outside u hin)
  have hletter := h.letters.letter_of_user hpids hm htype
  simp only [World.awaitedBy] at hwait hletter
  obtain ⟨mtype, body⟩ := m
  cases hphase : (w.users u).phase <;> simp only [hphase, Utente.Phase.awaited, ne_eq, not_true,
    reduceCtorEq, Option.some.injEq] at hwait hletter
  case awaitTicket s =>
    refine ⟨.user u (.receiveTicket s ⟨mtype, body⟩), rfl, ⟨hout, hphase, hfirst, ?_⟩, trivial,
      trivial⟩
    cases body with
    | serviceDone d => cases hletter
    | _ => exact le_refl 8
  case awaitDone x k start =>
    cases body with
    | ticketRequest r => cases hletter
    | ticketResponse r => cases hletter
    | serviceRequest r => exact absurd htype (((h.letters.typed _ hm).serviceRequest r rfl).2 u)
    | serviceDone d =>
      exact ⟨.user u (.receiveDone x k start ⟨mtype, .serviceDone d⟩ d), rfl,
        ⟨hout, hphase, hfirst, rfl⟩, trivial, trivial⟩

section Executions

variable {site : Site O U} {E : (posteReliable site).Execution}

theorem serviceKept_execution (hpids : PidsApart site) (h0 : E.state 0 = World.init site)
    (i : ℕ) : ServiceKept site (E.state i) :=
  E.invariant (h0 ▸ serviceKept_init site) (fun _ _ hw ha => hw.step hpids ha) i

/-- A user that waits with the given phase, while an answer for it is in the queue. -/
def Answerable (site : Site O U) (u : U) (p : Utente.Phase) (w : World O U) : Prop :=
  ServiceKept site w ∧ (w.users u).phase = p ∧ w.AnswerWaits site u

theorem user_of_other {w : World O U} {a : Act O U} (ha : w.Enabled site a) {u : U}
    (hother : ∀ b, a ≠ .user u b) (hwait : w.awaitedBy site u ≠ none) :
    (w.next site a).users u = w.users u := by
  rcases user_step site ha u with hu | ⟨b, hb, -, -⟩ | ⟨n, -, hphase, -⟩
  · exact hu
  · exact absurd hb (hother b)
  · rw [World.awaitedBy, hphase] at hwait
    exact absurd rfl hwait

/-- An answer in the queue is taken by the user it is for. -/
theorem answer_leads (hpids : PidsApart site) {u : U} (huser : E.WeaklyFair (Act.ReceivesFor u))
    {p : Utente.Phase} (hp : p.awaited (site.userPid u) ≠ none) {i : ℕ}
    (hi : Answerable site u p (E.state i)) :
    ∃ j, i ≤ j ∧ p.Answered ((E.state j).users u).phase := by
  have hstep (w : World O U) (a : Act O U) (hw : Answerable site u p w)
      (ha : (posteReliable site).Enabled w a) :
      (∃ b, a = .user u b) ∧ p.Answered ((w.next site a).users u).phase ∨
        (∀ b, a ≠ .user u b) ∧ Answerable site u p (w.next site a) := by
    obtain ⟨hkept, rfl, hanswer⟩ := hw
    by_cases hown : ∃ b, a = .user u b
    · obtain ⟨b, rfl⟩ := hown
      exact Or.inl ⟨⟨b, rfl⟩, (answered_of_user hpids hkept ha.1 ha.2.1 hp).1⟩
    · have hother : ∀ b, a ≠ .user u b := fun b hb => hown ⟨b, hb⟩
      exact Or.inr ⟨hother, hkept.step hpids ha, by rw [user_of_other ha.1 hother hp],
        answerWaits_step hpids ha.1 hother hanswer⟩
  refine huser.leads (P := Answerable site u p) (Q := fun w => p.Answered (w.users u).phase)
    (μ := fun _ => 0) ⟨fun w a hw _ ha hG => ?_, fun _ _ _ _ _ _ => Or.inr (le_refl 0)⟩ ?_ ?_ hi
  · rcases hstep w a hw ha with ⟨-, hanswered⟩ | ⟨hother, -⟩
    · exact Or.inl hanswered
    · obtain ⟨b, hb⟩ := user_of_receivesFor hG
      exact absurd hb (hother b)
  · intro w a hw _ ha
    rcases hstep w a hw ha with ⟨-, hanswered⟩ | ⟨-, hstill⟩
    · exact Or.inr hanswered
    · exact Or.inl hstill
  · rintro w ⟨hkept, rfl, hanswer⟩ -
    exact receive_canTake hpids hkept hp hanswer

end Executions

def Act.OfDispenser : Act O U → Prop
  | .ticket _ => True
  | _ => False

/-- The user waits for the ticket of a service. -/
def WaitsForTicket (site : Site O U) (u : U) (s : ServiceId) (w : World O U) : Prop :=
  ServiceKept site w ∧ (w.users u).phase = .awaitTicket s

section Line

variable {site : Site O U} {w : World O U} {u : U} {s : ServiceId}

omit [DecidableEq O] [DecidableEq U] in
theorem WaitsForTicket.awaited (h : WaitsForTicket site u s w) :
    w.awaitedBy site u = some (.ticket (site.userPid u)) := by
  rw [World.awaitedBy, h.2]
  rfl

end Line

def Act.OfSection : Act O U → Prop
  | .section => True
  | _ => False

/-- The steps of an operator with a client. -/
def Act.Serves (o : O) : Act O U → Prop
  | .oper p (.countRequest _ _) | .oper p (.serve _ _ _) | .oper p (.reply _ _ _) => p = o
  | _ => False

omit [Fintype O] [Fintype U] [DecidableEq O] [DecidableEq U] in
theorem oper_of_serves {o : O} {a : Act O U} (h : Act.Serves o a) : ∃ b, a = .oper o b := by
  cases a with
  | oper p b =>
    cases b <;> first
      | exact h.elim
      | (obtain rfl : p = o := h
         exact ⟨_, rfl⟩)
  | _ => exact h.elim

theorem lock_comes_back {site : Site O U} {E : (posteReliable site).Execution}
    (hsection : E.WeaklyFair Act.OfSection) (i : ℕ) :
    ∃ j, i ≤ j ∧ (E.state j).sh.stats.Free := by
  refine hsection.reaches (P := fun _ => True) (Q := fun w => w.sh.stats.Free)
    (μ := fun w => w.sh.stats.pending.length) ⟨fun w a _ _ ha hG => ?_, fun w a _ hheld ha hG => ?_⟩
    (fun _ => trivial) (fun w _ hheld => ?_) i
  · cases a with
    | «section» => exact pending_of_section site ha.1
    | _ => exact hG.elim
  · have hother : a ≠ .section := by
      rintro rfl
      exact hG trivial
    exact Or.inr (le_of_eq (congrArg (fun m => m.pending.length)
      (stats_of_other site ha.1 hheld hother)))
  · have henabled : w.Enabled site .section := hheld
    exact ⟨.section, trivial, henabled, trivial, trivial⟩

/-- The steps an operator has to make until its answer is sent. -/
def Operatore.Phase.stepsToReply : Operatore.Phase → ℕ
  | .request _ _ => 3
  | .serve _ _ => 2
  | .reply _ _ _ => 1
  | _ => 0

/-- The user waits with the given phase, and the operator has its request. -/
def RequestTaken (site : Site O U) (o : O) (u : U) (p : Utente.Phase) (n : ℤ) (w : World O U) :
    Prop :=
  ServiceKept site w ∧ (w.users u).phase = p ∧
    w.heldBy o = some (.service (site.userPid u) n)

section Taken

variable {site : Site O U} {w : World O U} {o : O} {u : U} {p : Utente.Phase} {n : ℤ}

theorem operator_nearer {b : Operatore.Act} (ha : w.Enabled site (.oper o b))
    (hrel : Reliable (.oper o b : Act O U))
    (hheld : w.heldBy o = some (.service (site.userPid u) n)) :
    (w.next site (.oper o b)).AnswerWaits site u ∨
      (w.next site (.oper o b)).heldBy o = some (.service (site.userPid u) n) ∧
        ((w.next site (.oper o b)).opers o).phase.stepsToReply <
          (w.opers o).phase.stepsToReply := by
  have hnext : (w.next site (.oper o b)).opers o =
      (Operatore.next site o (w.opers o) w.sh b).1 := by simp [World.next]
  rw [World.heldBy, hnext]
  obtain ⟨-, he⟩ := ha
  simp only [World.heldBy] at hheld
  cases hphase : (w.opers o).phase <;>
    simp only [hphase, Operatore.Phase.held, reduceCtorEq] at hheld
  case request k q =>
    right
    cases b <;> simp only [Operatore.Enabled, hphase, reduceCtorEq, false_and, or_self] at he
    case countRequest k' q' =>
      obtain ⟨hq, -⟩ := he
      cases hq
      exact ⟨hheld, by simp [Operatore.next, Operatore.Phase.stepsToReply]⟩
  case serve k q =>
    right
    cases b <;> simp only [Operatore.Enabled, hphase, reduceCtorEq, false_and, or_self] at he
    case serve k' q' r =>
      cases he
      exact ⟨hheld, by simp [Operatore.next, Operatore.Phase.stepsToReply]⟩
  case reply k q time =>
    left
    cases b <;> simp only [Operatore.Enabled, hphase, reduceCtorEq, false_and, or_self] at he
    case reply k' q' time' =>
      cases he
      have hpid : q.senderPid = site.userPid u := (Letter.service.inj (Option.some.inj hheld)).1
      exact ⟨_, List.mem_append_right _ List.mem_cons_self, hpid⟩
    case replyFails k' q' time' => exact hrel.elim

theorem operator_canTake (hfree : w.sh.stats.Free)
    (hheld : w.heldBy o = some (.service (site.userPid u) n)) :
    (posteReliable site).CanTake (Act.Serves o) w := by
  have hout : w.sh.stats.inside ≠ some (.operatore o) := by
    have hholder : w.sh.stats.holder = none := hfree
    simp [Monitor.inside, hholder]
  simp only [World.heldBy] at hheld
  cases hphase : (w.opers o).phase <;>
    simp only [hphase, Operatore.Phase.held, reduceCtorEq] at hheld
  case request k q =>
    exact ⟨.oper o (.countRequest k q), rfl, ⟨hout, hphase, hfree⟩, trivial, trivial⟩
  case serve k q => exact ⟨.oper o (.serve k q 0), rfl, ⟨hout, hphase⟩, trivial, trivial⟩
  case reply k q time => exact ⟨.oper o (.reply k q time), rfl, ⟨hout, hphase⟩, trivial, trivial⟩

theorem requestTaken_unless (hpids : PidsApart site) (hp : p.awaited (site.userPid u) ≠ none) :
    (posteReliable site).Unless (RequestTaken site o u p n) (Answerable site u p) := by
  rintro w a ⟨hkept, rfl, hheld⟩ hanswer ha
  have hother : ∀ b, a ≠ .user u b := by
    rintro b rfl
    exact hanswer ⟨hkept, rfl, (answered_of_user hpids hkept ha.1 ha.2.1 hp).2⟩
  have hphase := congrArg Utente.Local.phase (user_of_other ha.1 hother hp)
  rcases oper_step site ha.1 o with hsame | ⟨b, rfl, -, -⟩
  · exact Or.inl ⟨hkept.step hpids ha, hphase,
      (congrArg (fun l => l.phase.held) hsame).trans hheld⟩
  · rcases operator_nearer ha.1 ha.2.1 hheld with hwaits | ⟨hstill, -⟩
    · exact Or.inr ⟨hkept.step hpids ha, hphase, hwaits⟩
    · exact Or.inl ⟨hkept.step hpids ha, hphase, hstill⟩

theorem operator_drives (hpids : PidsApart site) (hp : p.awaited (site.userPid u) ≠ none) :
    (posteReliable site).Drives (Act.Serves o) (RequestTaken site o u p n)
      (Answerable site u p) (fun w => (w.opers o).phase.stepsToReply) where
  decreases := by
    rintro w a ⟨hkept, rfl, hheld⟩ - ha hG
    obtain ⟨b, rfl⟩ := oper_of_serves hG
    rcases operator_nearer ha.1 ha.2.1 hheld with hwaits | ⟨-, hless⟩
    · exact Or.inl ⟨hkept.step hpids ha, rfl, hwaits⟩
    · exact Or.inr hless
  keeps := by
    rintro w a ⟨hkept, rfl, hheld⟩ - ha -
    rcases oper_step site ha.1 o with hsame | ⟨b, rfl, -, -⟩
    · exact Or.inr (le_of_eq (congrArg (fun l => l.phase.stepsToReply) hsame))
    · rcases operator_nearer ha.1 ha.2.1 hheld with hwaits | ⟨-, hless⟩
      · exact Or.inl ⟨hkept.step hpids ha, rfl, hwaits⟩
      · exact Or.inr hless.le

end Taken

/-- In every execution that is fair to whoever is inside a section, to the operator with
its client and to the receives of the user, a request that the operator has taken is answered:
the user gets a `service_done` with the number of its ticket. -/
theorem every_taken_request_is_answered (site : Site O U) (hpids : PidsApart site)
    (E : (posteReliable site).Execution) (h0 : E.state 0 = World.init site)
    (hsection : E.WeaklyFair Act.OfSection) (o : O) (hoper : E.StronglyFair (Act.Serves o))
    (u : U) (huser : E.WeaklyFair (Act.ReceivesFor u)) (i : ℕ) (n : ℤ)
    (htaken : (E.state i).heldBy o = some (.service (site.userPid u) n)) :
    ∃ j, i ≤ j ∧ ∃ x k start d, ((E.state j).users u).phase = .readEnd x k start d ∧
      d.ticketNumber = n ∧ x.ticket = n := by
  have hkept := serviceKept_execution hpids h0 i
  obtain ⟨v, hwait, hpid⟩ := hkept.letters.awaitedBy_of_inFlight (inFlight_of_heldBy htaken)
  obtain rfl : v = u := site.userPid_injective hpid.symm
  obtain ⟨x, k, start, hphase, hnumber⟩ := awaited_eq_service hwait
  have hp : (Utente.Phase.awaitDone x k start).awaited (site.userPid v) ≠ none := by
    simp [Utente.Phase.awaited]
  obtain ⟨j, hj, hanswer⟩ := hoper.leads (operator_drives hpids hp) (requestTaken_unless hpids hp)
    (fun m _ => by
      obtain ⟨j, hj, hfree⟩ := lock_comes_back hsection m
      exact ⟨j, hj, fun h => Or.inr (operator_canTake hfree h.2.2)⟩)
    ⟨hkept, hphase, htaken⟩
  obtain ⟨l, hl, d, hd, hdone⟩ := answer_leads hpids huser hp hanswer
  exact ⟨l, hj.trans hl, x, k, start, d, hdone, hd.trans hnumber, hnumber⟩

theorem servedDay_fails_nowhere : (posteReliable office).Runs (World.init office) servedDay :=
  servedDay_reliable

/-- The day with one service, after which nothing happens any more. -/
def servedForever : (posteReliable office).Execution :=
  GuardedSystem.Execution.ofRun (posteReliable office) servedDay_fails_nowhere

/-- What comes after 19:59. -/
def servedEvening : List (Act (Fin 2) (Fin 2)) := officeTickets ++ (officeRequest ++ officeService)

theorem servedForever_state (k : ℕ) :
    servedForever.state ((officeNight ++ officeWait).length + k) =
      (poste office).after officeBeforeClosing (servedEvening.take k) := by
  have hday : servedDay = (officeNight ++ officeWait) ++ servedEvening := by
    rw [servedDay, officeDay, servedEvening, List.append_assoc, List.append_assoc,
      List.append_assoc]
  rw [servedForever, GuardedSystem.Execution.ofRun_state, hday, List.take_length_add_append,
    posteReliable_after, GuardedSystem.after_append, officeWait_after]

theorem servedForever_fair : servedForever.WeaklyFair Act.OfDispenser ∧
    servedForever.WeaklyFair Act.OfSection ∧ servedForever.StronglyFair (Act.Serves 0) ∧
    ∀ u, servedForever.WeaklyFair (Act.ReceivesFor u) := by
  have hlast : (posteReliable office).after (World.init office) servedDay =
      (poste office).after atCounters (officeRequest ++ officeService) := by
    rw [posteReliable_after, servedDay_after]
  let last := (poste office).after atCounters (officeRequest ++ officeService)
  have hqueue : last.sh.queue = [] := by decide +kernel
  have hidle : last.ticket.phase = .idle := by decide +kernel
  have hfree : last.sh.stats.Free := by decide +kernel
  have hheld : (last.opers 0).phase.held = none := by decide +kernel
  refine ⟨(GuardedSystem.Execution.ofRun_fair servedDay_fails_nowhere ?_).1,
    (GuardedSystem.Execution.ofRun_fair servedDay_fails_nowhere ?_).1,
    (GuardedSystem.Execution.ofRun_fair servedDay_fails_nowhere ?_).2,
    fun u => (GuardedSystem.Execution.ofRun_fair servedDay_fails_nowhere ?_).1⟩
  all_goals
    rintro ⟨a, hG, hen⟩
    rw [hlast] at hen
    obtain ⟨ha, hrel, -⟩ := hen
    have ha : last.Enabled office a := ha
  · cases a with
    | ticket b =>
      cases b with
      | receive m =>
        have hfirst := ha.2.1
        rw [hqueue] at hfirst
        cases hfirst
      | interrupted => exact hrel.elim
      | receiveFails => exact hrel.elim
      | reply pid => exact absurd (hidle.symm.trans ha) ErogatoreTicket.Phase.noConfusion
      | replyFails pid => exact hrel.elim
      | count => exact absurd (hidle.symm.trans ha) ErogatoreTicket.Phase.noConfusion
    | _ => exact hG.elim
  · cases a with
    | «section» => exact ha hfree
    | _ => exact hG.elim
  · obtain ⟨b, rfl⟩ := oper_of_serves hG
    cases b <;> try exact hG.elim
    case countRequest k q =>
      rw [ha.2.1] at hheld
      cases hheld
    case serve k q r =>
      rw [ha.2] at hheld
      cases hheld
    case reply k q time =>
      rw [ha.2] at hheld
      cases hheld
  · obtain ⟨b, rfl⟩ := user_of_receivesFor hG
    cases b <;> try exact hG.elim
    all_goals
      have hfirst := ha.2.2.1
      rw [hqueue] at hfirst
      cases hfirst

/-- The operator has the request of the first user. -/
theorem every_taken_request_is_answered_served :
    ∃ j, (officeNight ++ officeWait).length + 22 ≤ j ∧ ∃ x k start d,
      ((servedForever.state j).users 0).phase = .readEnd x k start d ∧
        d.ticketNumber = 0 ∧ x.ticket = 0 :=
  every_taken_request_is_answered office office_pidsApart servedForever rfl
    servedForever_fair.2.1 0 servedForever_fair.2.2.1 0 (servedForever_fair.2.2.2 0) _ 0
    (by rw [servedForever_state]; decide +kernel)

end PosteItaliane
