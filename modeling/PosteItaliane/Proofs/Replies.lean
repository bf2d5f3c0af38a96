import PosteItaliane.Proofs.DayLoop
import PosteItaliane.Proofs.Letters

/-!
# Whose reply is read

A receive looks at the type of a message only, and a user that gives up on a reply does not
take it out of the queue. A ghost marks every message with the call of `handle_service` its
request was sent in. The reply a user reads is the one to its own call as long as nothing of
an earlier call is on its way when the user sends, and no request has the type of its replies.
-/

namespace PosteItaliane

open Framework Framework.Mailbox

variable {O U : Type} [Fintype O] [Fintype U] [DecidableEq O] [DecidableEq U]

/-- How many calls of `handle_service` each user has begun, and the call each message and
each request that is being handled belongs to. -/
structure Calls (O U : Type) where
  begun : U → ℕ
  mail : List (Message × Option (U × ℕ))
  ticket : Option (U × ℕ)
  oper : O → Option (U × ℕ)

def Calls.init : Calls O U := ⟨fun _ => 0, [], none, fun _ => none⟩

/-- The call that the first message of the type belongs to. -/
def Calls.origin (g : Calls O U) (mtype : ℕ) : Option (U × ℕ) :=
  (g.mail.find? fun p => p.1.mtype = mtype).bind Prod.snd

/-- The call for which a process sends. -/
def Calls.author (g : Calls O U) : Act O U → Option (U × ℕ)
  | .user u _ => some (u, g.begun u)
  | .oper o _ => g.oper o
  | .ticket _ => g.ticket
  | _ => none

def Calls.record (site : Site O U) (g : Calls O U) (w : World O U) (a : Act O U) :
    Calls O U where
  begun := match a with
    | .user u (.nextService _ _) => Function.update g.begun u (g.begun u + 1)
    | _ => g.begun
  mail := match receivedBy a with
    | some m => rest (fun p => p.1.mtype = m.mtype) g.mail
    | none => g.mail ++ (sentBy site w a).toList.map fun m => (m, g.author a)
  ticket := match a with
    | .ticket (.receive m) => g.origin m.mtype
    | _ => g.ticket
  oper := match a with
    | .oper o (.receive _ m) => Function.update g.oper o (g.origin m.mtype)
    | _ => g.oper

/-- The simulation with the calls. -/
def posteCalls (site : Site O U) : GuardedSystem (World O U × Calls O U) (Act O U) :=
  (poste site).withGhost (Calls.record site)

/-- What a user reads answers the request of its present call. -/
def Matched (g : Calls O U) : Act O U → Prop
  | .user u (.receiveTicket _ m) =>
    (∃ r, m.body = .ticketResponse r) ∧ g.origin m.mtype = some (u, g.begun u)
  | .user u (.receiveDone x _ _ m d) =>
    m.body = .serviceDone d ∧ d.ticketNumber = x.ticket ∧ (d.serviceId : ℕ) ≤ 5 ∧
      g.origin m.mtype = some (u, g.begun u)
  | _ => True

def Body.isRequest : Body → Bool
  | .ticketRequest _ => true
  | .serviceRequest _ => true
  | _ => false

/-- A request of the process or a reply to it is in the queue or in somebody's hands. -/
def World.OnTheWay (w : World O U) (pid : ℕ) : Prop :=
  (∃ m ∈ w.sh.queue, m.letter.pid = pid) ∨ w.ticket.phase.held.map Letter.pid = some pid ∨
    ∃ o, (w.heldBy o).map Letter.pid = some pid

instance World.decidableOnTheWay (w : World O U) (pid : ℕ) : Decidable (w.OnTheWay pid) :=
  inferInstanceAs (Decidable (_ ∨ _ ∨ _))

/-- A user sends when nothing of an earlier call is on its way, and takes no request. -/
def StartsClean (site : Site O U) (w : World O U) : Act O U → Prop
  | .user u (.sendTicket _) => ¬ w.OnTheWay (site.userPid u)
  | .user u (.sendRequest _ _ _ _) => ¬ w.OnTheWay (site.userPid u)
  | .user _ (.receiveTicket _ m) => m.body.isRequest = false
  | .user _ (.receiveDone _ _ _ m _) => m.body.isRequest = false
  | _ => True

instance decidableStartsClean (site : Site O U) (w : World O U) (a : Act O U) :
    Decidable (StartsClean site w a) := by
  rcases a with ⟨o, b⟩ | ⟨u, b⟩ | _
  case user => rcases b with _ | _ <;> (dsimp only [StartsClean]; infer_instance)
  all_goals exact isTrue trivial

/-- A letter is on its way for a call. -/
def Bears (p : World O U × Calls O U) (l : Letter) (call : Option (U × ℕ)) : Prop :=
  (∃ m, (m, call) ∈ p.2.mail ∧ m.letter = l) ∨
    (p.1.ticket.phase.held = some l ∧ p.2.ticket = call) ∨
    ∃ o, p.1.heldBy o = some l ∧ p.2.oper o = call

/-- The types of requests and the senders of replies. -/
structure Posted (site : Site O U) (m : Message) : Prop where
  ticketRequest : ∀ r, m.body = .ticketRequest r → m.mtype = msgTypeTicketRequest
  ticketResponse : ∀ r, m.body = .ticketResponse r → r.generatorPid = site.ticketPid
  serviceRequest : ∀ r, m.body = .serviceRequest r → ∃ pid, m.mtype = serviceRequestType pid
  serviceDone : ∀ d, m.body = .serviceDone d → ∃ o, d.senderPid = site.operatorPid o

/-- What a user waits for is the only thing on its way for it. -/
structure RepliesKept (site : Site O U) (p : World O U × Calls O U) : Prop where
  mail : p.2.mail.map Prod.fst = p.1.sh.queue
  posted : ∀ m ∈ p.1.sh.queue, Posted site m
  own : ∀ u l l' call, p.1.awaitedBy site u = some l → Bears p l' call →
    l'.pid = site.userPid u → l' = l ∧ call = some (u, p.2.begun u)

theorem serviceRequestType_ne (pid : ℕ) : serviceRequestType pid ≠ msgTypeTicketRequest := by
  simp only [serviceRequestType, msgTypeTicketRequest]
  omega

omit [DecidableEq O] [DecidableEq U] in
theorem posted_of_sentBy {site : Site O U} {w : World O U} {a : Act O U} {m : Message}
    (h : sentBy site w a = some m) : Posted site m := by
  have hnone {α β : Type} {f : α → Body} {g : β → Body} {x : α} {P : β → Prop}
      (hfg : ∀ y, f x ≠ g y) : ∀ y, f x = g y → P y := fun y hy => absurd hy (hfg y)
  cases a with
  | user u b =>
    cases b <;> simp only [sentBy, reduceCtorEq, Option.some.injEq] at h <;> subst h
    case sendTicket s =>
      exact ⟨fun _ _ => rfl, hnone (by simp), hnone (by simp), hnone (by simp)⟩
    case sendRequest x k op start =>
      exact ⟨hnone (by simp), hnone (by simp), fun _ _ => ⟨op, rfl⟩, hnone (by simp)⟩
  | oper o b =>
    cases b <;> simp only [sentBy, reduceCtorEq, Option.some.injEq] at h
    case reply k q time =>
      subst h
      refine ⟨hnone (by simp), hnone (by simp), hnone (by simp), ?_⟩
      intro d hd
      cases hd
      exact ⟨o, rfl⟩
  | ticket b =>
    cases b <;> simp only [sentBy, reduceCtorEq, Option.some.injEq] at h
    case reply pid =>
      subst h
      refine ⟨hnone (by simp), ?_, hnone (by simp), hnone (by simp)⟩
      intro r hr
      cases hr
      rfl
  | director b => cases h
  | «section» => cases h

theorem mail_step {site : Site O U} {p : World O U × Calls O U} (h : RepliesKept site p)
    {a : Act O U} (ha : p.1.Enabled site a) :
    (p.2.record site p.1 a).mail.map Prod.fst = (p.1.next site a).sh.queue := by
  have hqueue := queue_step site ha
  simp only [Calls.record]
  cases hr : receivedBy a with
  | some m =>
    rw [hr] at hqueue
    rw [hqueue.2, ← h.mail]
    simp only [afterReceive, rest, List.eraseP_map, Function.comp_def]
  | none =>
    rw [hr] at hqueue
    rw [hqueue, ← h.mail]
    simp [List.map_append, Function.comp_def]

omit [DecidableEq O] [DecidableEq U] in
theorem origin_mem {site : Site O U} {p : World O U × Calls O U} (h : RepliesKept site p)
    {t : ℕ} {m : Message} (hm : firstOfType p.1.sh.queue t = some m) :
    (m, p.2.origin m.mtype) ∈ p.2.mail := by
  obtain ⟨-, rfl⟩ := firstOfType_eq_some hm
  rw [firstOfType, ← h.mail, List.find?_map] at hm
  obtain ⟨⟨m', call⟩, hfind, rfl⟩ := Option.map_eq_some_iff.mp hm
  have horigin : p.2.origin m'.mtype = call := by
    rw [Calls.origin]
    exact congrArg (Option.bind · Prod.snd) hfind
  rw [horigin]
  exact List.mem_of_find?_eq_some hfind

theorem ticket_bears {site : Site O U} {p : World O U × Calls O U} (h : RepliesKept site p)
    {b : ErogatoreTicket.Act} (ha : p.1.Enabled site (.ticket b)) {u : U} {l : Letter}
    (hl : l.pid = site.userPid u)
    (hheld : (p.1.next site (.ticket b)).ticket.phase.held = some l) :
    Bears p l (p.2.record site p.1 (.ticket b)).ticket := by
  cases b with
  | receive m =>
    have hfirst : firstOfType p.1.sh.queue msgTypeTicketRequest = some m := ha.2.1
    have hposted := h.posted m (firstOfType_eq_some hfirst).1
    have htype := (firstOfType_eq_some hfirst).2
    cases hheld
    cases hbody : m.body with
    | ticketRequest r =>
      refine Or.inl ⟨m, origin_mem h hfirst, ?_⟩
      simp [Message.letter, hbody, Body.words]
    | ticketResponse r =>
      simp only [Letter.pid, hbody, Body.words, hposted.ticketResponse r hbody] at hl
      exact absurd hl (site.ticketPid_ne u)
    | serviceRequest r =>
      obtain ⟨pid, hpid⟩ := hposted.serviceRequest r hbody
      exact absurd (hpid.symm.trans htype) (serviceRequestType_ne pid)
    | serviceDone d =>
      obtain ⟨o, ho⟩ := hposted.serviceDone d hbody
      simp only [Letter.pid, hbody, Body.words, ho] at hl
      exact absurd hl (site.pids_disjoint o u)
  | interrupted => exact Or.inr (Or.inl ⟨hheld, rfl⟩)
  | _ => cases hheld

theorem oper_bears {site : Site O U} {p : World O U × Calls O U} (h : RepliesKept site p)
    {o : O} {b : Operatore.Act} (ha : p.1.Enabled site (.oper o b)) {u : U} {l : Letter}
    (hl : l.pid = site.userPid u)
    (hheld : (Operatore.next site o (p.1.opers o) p.1.sh b).1.phase.held = some l) :
    Bears p l ((p.2.record site p.1 (.oper o b)).oper o) := by
  obtain ⟨-, he⟩ := ha
  cases b
  case receive k m =>
    have hfirst : firstOfType p.1.sh.queue (serviceRequestType (site.operatorPid o)) = some m :=
      he.2.1
    have hposted := h.posted m (firstOfType_eq_some hfirst).1
    have htype := (firstOfType_eq_some hfirst).2
    have hl' : l = .service m.body.words.1 m.body.words.2 := by
      by_cases hignored : Operatore.Ignored (Operatore.readRequest m)
      · simp [Operatore.next, hignored, Operatore.Phase.held] at hheld
      · simp only [Operatore.next, if_neg hignored, Operatore.Phase.held,
          Option.some.injEq] at hheld
        exact hheld.symm
    subst hl'
    cases hbody : m.body with
    | ticketRequest r =>
      exact absurd (htype.symm.trans (hposted.ticketRequest r hbody)) (serviceRequestType_ne _)
    | ticketResponse r =>
      simp only [Letter.pid, hbody, Body.words, hposted.ticketResponse r hbody] at hl
      exact absurd hl (site.ticketPid_ne u)
    | serviceRequest r =>
      refine Or.inl ⟨m, ?_, by simp [Message.letter, hbody, Body.words]⟩
      simpa [Calls.record] using origin_mem h hfirst
    | serviceDone d =>
      obtain ⟨o', ho'⟩ := hposted.serviceDone d hbody
      simp only [Letter.pid, hbody, Body.words, ho'] at hl
      exact absurd hl (site.pids_disjoint o' u)
  all_goals
    refine Or.inr (Or.inr ⟨o, ?_, rfl⟩)
    simp only [Operatore.Enabled] at he
    simp only [Operatore.next] at hheld
    simp only [World.heldBy]
    grind [Operatore.Phase.held]

/-- A letter in the queue was borne before, or its user has just sent it. -/
theorem mail_bears {site : Site O U} {p : World O U × Calls O U} {a : Act O U}
    (ha : p.1.Enabled site a) {u : U} {m : Message} {call : Option (U × ℕ)}
    (hl : m.letter.pid = site.userPid u) (hm : (m, call) ∈ ((posteCalls site).next p a).2.mail) :
    Bears p m.letter call ∨ ∃ b m', a = .user u b ∧ sentBy site p.1 a = some m' ∧
      m'.letter = m.letter ∧ call = some (u, p.2.begun u) := by
  have hold (hmem : (m, call) ∈ p.2.mail) : Bears p m.letter call := Or.inl ⟨m, hmem, rfl⟩
  have hmail : (m, call) ∈ (p.2.record site p.1 a).mail := hm
  simp only [Calls.record] at hmail
  cases hr : receivedBy a with
  | some m' =>
    rw [hr] at hmail
    exact Or.inl (hold (mem_of_mem_rest hmail))
  | none =>
    simp only [hr, List.mem_append, List.mem_map, Option.mem_toList, Prod.mk.injEq] at hmail
    rcases hmail with hmem | ⟨m', hsent, rfl, rfl⟩
    · exact Or.inl (hold hmem)
    · cases a with
      | user v b =>
        have hpid : m'.letter.pid = site.userPid v := by
          cases b <;> simp only [sentBy, reduceCtorEq, Option.some.injEq] at hsent <;>
            subst hsent <;> rfl
        have huv : v = u := site.userPid_injective (hpid.symm.trans hl)
        subst v
        exact Or.inr ⟨b, m', rfl, hsent, rfl, rfl⟩
      | oper o b =>
        left
        cases b <;> simp only [sentBy, reduceCtorEq, Option.some.injEq] at hsent
        case reply k q time =>
          have he : (p.1.opers o).phase = .reply k q time := ha.2
          subst hsent
          exact Or.inr (Or.inr ⟨o, by rw [World.heldBy, he]; rfl, rfl⟩)
      | ticket b =>
        left
        cases b <;> simp only [sentBy, reduceCtorEq, Option.some.injEq] at hsent
        case reply pid =>
          have he : p.1.ticket.phase = .holding pid := ha
          subst hsent
          exact Or.inr (Or.inl ⟨by rw [he]; rfl, rfl⟩)
      | director b => cases hsent
      | «section» => cases hsent

/-- A letter of a user that is on its way after a step was so before, or the user sent it. -/
theorem bears_step {site : Site O U} {p : World O U × Calls O U} (h : RepliesKept site p)
    {a : Act O U} (ha : p.1.Enabled site a) {u : U} {l : Letter} {call : Option (U × ℕ)}
    (hl : l.pid = site.userPid u) (hbears : Bears ((posteCalls site).next p a) l call) :
    Bears p l call ∨ ∃ b m, a = .user u b ∧ sentBy site p.1 a = some m ∧ m.letter = l ∧
      call = some (u, p.2.begun u) := by
  rcases hbears with ⟨m, hm, rfl⟩ | ⟨hheld, rfl⟩ | ⟨o, hheld, rfl⟩
  · exact mail_bears ha hl hm
  · left
    cases a with
    | ticket b => exact ticket_bears h ha hl hheld
    | oper o b => exact Or.inr (Or.inl ⟨hheld, rfl⟩)
    | user v b => exact Or.inr (Or.inl ⟨hheld, rfl⟩)
    | director b => exact Or.inr (Or.inl ⟨hheld, rfl⟩)
    | «section» => exact Or.inr (Or.inl ⟨hheld, rfl⟩)
  · left
    have hkeep (hopers : (p.1.next site a).opers o = p.1.opers o)
        (hcall : (p.2.record site p.1 a).oper o = p.2.oper o) :
        Bears p l ((p.2.record site p.1 a).oper o) := by
      rw [hcall]
      have hbefore : p.1.heldBy o = some l := by
        rw [World.heldBy, ← hopers]
        exact hheld
      exact Or.inr (Or.inr ⟨o, hbefore, rfl⟩)
    cases a with
    | oper o' b =>
      by_cases ho : o = o'
      · subst o'
        have hheld' : (Operatore.next site o (p.1.opers o) p.1.sh b).1.phase.held = some l := by
          simpa [posteCalls, poste, GuardedSystem.withGhost, World.heldBy, World.next] using hheld
        exact oper_bears h ha hl hheld'
      · refine hkeep (Function.update_of_ne ho _ _) ?_
        cases b <;> try rfl
        case receive k m => exact Function.update_of_ne ho _ _
    | user v b => exact hkeep rfl rfl
    | ticket b => exact hkeep rfl rfl
    | director b => exact hkeep rfl rfl
    | «section» => exact hkeep rfl rfl

theorem awaitedBy_step {site : Site O U} {w : World O U} {a : Act O U} (ha : w.Enabled site a)
    {u : U} {l : Letter} (h : (w.next site a).awaitedBy site u = some l) :
    (w.awaitedBy site u = some l ∧ (∀ s todo, a ≠ .user u (.nextService s todo)) ∧
        ∀ b, a = .user u b → sentBy site w a = none) ∨
      ∃ b m, a = .user u b ∧ sentBy site w a = some m ∧ m.letter = l := by
  have hkeep (hsame : (w.next site a).awaitedBy site u = w.awaitedBy site u)
      (hnot : ∀ b, a ≠ .user u b) :
      w.awaitedBy site u = some l ∧ (∀ s todo, a ≠ .user u (.nextService s todo)) ∧
        ∀ b, a = .user u b → sentBy site w a = none :=
    ⟨hsame ▸ h, fun s todo => hnot _, fun b hb => absurd hb (hnot b)⟩
  cases a with
  | user v b =>
    by_cases hv : v = u
    · subst v
      have h' : (Utente.next site u (w.users u) w.sh b).1.phase.awaited (site.userPid u) =
          some l := by simpa [World.awaitedBy, World.next] using h
      obtain ⟨-, he⟩ := ha
      cases b
      case sendTicket s =>
        cases h'
        exact Or.inr ⟨_, _, rfl, rfl, rfl⟩
      case sendRequest x k op start =>
        cases h'
        exact Or.inr ⟨_, _, rfl, rfl, rfl⟩
      case sleepOn walkIn => exact Or.inl ⟨h', by simp, fun _ _ => rfl⟩
      all_goals
        exfalso
        simp only [Utente.Enabled] at he
        simp only [Utente.next] at h'
        grind [Utente.Phase.awaited]
    · refine Or.inl (hkeep ?_ fun b' hb => hv (by cases hb; rfl))
      simp [World.awaitedBy, World.next, Ne.symm hv]
  | oper o b => exact Or.inl (hkeep rfl fun _ hb => by cases hb)
  | ticket b => exact Or.inl (hkeep rfl fun _ hb => by cases hb)
  | director b =>
    refine Or.inl (hkeep ?_ fun _ hb => by cases hb)
    exact users_director (fun v q => q.awaited (site.userPid v)) (fun _ => rfl) site ha.2.2 u
  | «section» => exact Or.inl (hkeep rfl fun _ hb => by cases hb)

omit [DecidableEq O] [DecidableEq U] in
theorem onTheWay_of_bears {site : Site O U} {p : World O U × Calls O U} (h : RepliesKept site p)
    {l : Letter} {call : Option (U × ℕ)} (hbears : Bears p l call) : p.1.OnTheWay l.pid := by
  rcases hbears with ⟨m, hm, rfl⟩ | ⟨hheld, -⟩ | ⟨o, hheld, -⟩
  · have hqueue : m ∈ p.1.sh.queue := by
      rw [← h.mail]
      exact List.mem_map_of_mem (f := Prod.fst) hm
    exact Or.inl ⟨m, hqueue, rfl⟩
  · exact Or.inr (Or.inl (by rw [hheld]; rfl))
  · exact Or.inr (Or.inr ⟨o, by rw [hheld]; rfl⟩)

omit [DecidableEq O] [DecidableEq U] in
theorem startsClean_of_sentBy {site : Site O U} {w : World O U} {u : U} {b : Utente.Act}
    {m : Message} (hclean : StartsClean site w (.user u b))
    (hsent : sentBy site w (.user u b) = some m) : ¬ w.OnTheWay (site.userPid u) := by
  cases b <;> simp only [sentBy, reduceCtorEq] at hsent
  case sendTicket s => exact hclean
  case sendRequest x k op start => exact hclean

theorem RepliesKept.step {site : Site O U} {p : World O U × Calls O U} (h : RepliesKept site p)
    {a : Act O U} (ha : p.1.Enabled site a) (hclean : StartsClean site p.1 a) :
    RepliesKept site ((posteCalls site).next p a) where
  mail := mail_step h ha
  posted := by
    intro m hm
    rcases mem_queue_step site ha hm with hold | hsent
    · exact h.posted m hold
    · exact posted_of_sentBy hsent
  own := by
    intro u l l' call hawaited hbears hpid
    have hbegun (hnot : ∀ s todo, a ≠ .user u (.nextService s todo)) :
        (p.2.record site p.1 a).begun u = p.2.begun u := by
      cases a with
      | user v b =>
        cases b <;> try rfl
        case nextService s todo =>
          have hv : u ≠ v := by
            rintro rfl
            exact hnot s todo rfl
          exact Function.update_of_ne hv _ _
      | _ => rfl
    rcases awaitedBy_step ha hawaited with ⟨hwaits, hnot, hquiet⟩ | ⟨b, m, rfl, hsent, hletter⟩
    · rcases bears_step h ha hpid hbears with hold | ⟨b, m, rfl, hsent, -, -⟩
      · obtain ⟨hl, hcall⟩ := h.own u l l' call hwaits hold hpid
        exact ⟨hl, hcall.trans (by rw [← hbegun hnot]; rfl)⟩
      · cases (hquiet b rfl).symm.trans hsent
    · rcases bears_step h ha hpid hbears with hold | ⟨b', m', -, hsent', hletter', hcall⟩
      · exact absurd (hpid ▸ onTheWay_of_bears h hold) (startsClean_of_sentBy hclean hsent)
      · have hm : m = m' := Option.some.inj (hsent.symm.trans hsent')
        refine ⟨hletter'.symm.trans (hm ▸ hletter), hcall.trans ?_⟩
        rw [← hbegun]
        · rfl
        · rintro s todo hb
          cases hb
          cases hsent

omit [DecidableEq O] in
theorem repliesKept_init (site : Site O U) :
    RepliesKept site (World.init site, Calls.init) where
  mail := rfl
  posted := by
    intro m hm
    cases hm
  own := by
    intro u l l' call hawaited
    by_cases h : u ∈ site.initialUsers <;>
      simp [World.awaitedBy, World.init, h, Utente.Phase.awaited] at hawaited

omit [DecidableEq O] [DecidableEq U] in
/-- The letter a user takes is the one it waits for. -/
theorem RepliesKept.received {site : Site O U} {p : World O U × Calls O U}
    (h : RepliesKept site p) {u : U} {l : Letter} {m : Message}
    (hawaited : p.1.awaitedBy site u = some l)
    (hm : firstOfType p.1.sh.queue (site.userPid u) = some m) (hreply : m.body.isRequest = false) :
    m.letter = l ∧ p.2.origin m.mtype = some (u, p.2.begun u) := by
  have htype := (firstOfType_eq_some hm).2
  apply h.own u l m.letter _ hawaited (Or.inl ⟨m, origin_mem h hm, rfl⟩)
  cases hbody : m.body with
  | ticketResponse r => simp [Message.letter, hbody, Letter.pid, htype]
  | serviceDone d => simp [Message.letter, hbody, Letter.pid, htype]
  | ticketRequest r => rw [hbody] at hreply; cases hreply
  | serviceRequest r => rw [hbody] at hreply; cases hreply

omit [DecidableEq O] [DecidableEq U] in
theorem RepliesKept.matched {site : Site O U} {p : World O U × Calls O U}
    (h : RepliesKept site p) {a : Act O U} (ha : p.1.Enabled site a)
    (hclean : StartsClean site p.1 a) : Matched p.2 a := by
  cases a with
  | user u b =>
    cases b <;> try trivial
    case receiveTicket s m =>
      obtain ⟨-, hphase, hfirst, -⟩ := ha
      have hreply : m.body.isRequest = false := hclean
      have hawaited : p.1.awaitedBy site u = some (.ticket (site.userPid u)) := by
        rw [World.awaitedBy, hphase]
        rfl
      obtain ⟨hletter, horigin⟩ := h.received hawaited hfirst hreply
      refine ⟨?_, horigin⟩
      cases hbody : m.body with
      | ticketResponse r => exact ⟨r, rfl⟩
      | serviceDone d => simp [Message.letter, hbody] at hletter
      | ticketRequest r => rw [hbody] at hreply; cases hreply
      | serviceRequest r => rw [hbody] at hreply; cases hreply
    case receiveDone x k start m d =>
      obtain ⟨-, hphase, hfirst, hread⟩ := ha
      have hreply : m.body.isRequest = false := hclean
      have hawaited : p.1.awaitedBy site u = some (.service (site.userPid u) x.ticket) := by
        rw [World.awaitedBy, hphase]
        rfl
      obtain ⟨hletter, horigin⟩ := h.received hawaited hfirst hreply
      have hservice : (d.serviceId : ℕ) ≤ 5 := Nat.le_of_lt_succ d.serviceId.isLt
      cases hbody : m.body with
      | serviceDone d' =>
        rw [hbody] at hread
        have hd : d' = d := hread
        subst d'
        have hticket : d.ticketNumber = x.ticket := by
          simp only [Message.letter, hbody, Letter.service.injEq] at hletter
          exact hletter.2
        exact ⟨hbody, hticket, hservice, horigin⟩
      | ticketResponse r => simp [Message.letter, hbody] at hletter
      | ticketRequest r => rw [hbody] at hreply; cases hreply
      | serviceRequest r => rw [hbody] at hreply; cases hreply
  | _ => trivial

theorem repliesKept_run (site : Site O U) (as : List (Act O U))
    (h : ((poste site).restrict (StartsClean site)).Runs (World.init site) as) :
    RepliesKept site ((posteCalls site).after (World.init site, Calls.init) as) := by
  have hruns : ((posteCalls site).restrict fun p a => StartsClean site p.1 a).Runs
      (World.init site, Calls.init) as :=
    (((poste site).restrict (StartsClean site)).runs_withGhost (Calls.record site) _ _ _).mpr h
  exact ((posteCalls site).restrict fun p a => StartsClean site p.1 a).invariant
    (repliesKept_init site) (fun _ _ hp ha => hp.step ha.1 ha.2) as hruns

/-- In a run in which users start clean and take no requests, any call on the queue may
fail, and whatever a user receives is the reply to the request of its present call. -/
theorem replies_matched (site : Site O U) (as : List (Act O U)) (a : Act O U)
    (h : ((poste site).restrict (StartsClean site)).Runs (World.init site) (as ++ [a])) :
    Matched ((posteCalls site).after (World.init site, Calls.init) as).2 a := by
  obtain ⟨hruns, ha, hclean⟩ := (GuardedSystem.runs_snoc _ _ as a).mp h
  have hkept := repliesKept_run site as hruns
  rw [GuardedSystem.restrict_after] at ha hclean
  have hworld : ((posteCalls site).after (World.init site, Calls.init) as).1 =
      (poste site).after (World.init site) as :=
    (poste site).after_withGhost_fst (Calls.record site) _ _ as
  rw [← hworld] at ha hclean
  exact hkept.matched ha hclean

theorem calls_quiet (site : Site O U) (m : ℤ) (k : ℕ) (w : World O U) (g : Calls O U) :
    (posteCalls site).after (w, g) (quietMinutes m k) =
      ((poste site).after w (quietMinutes m k), g) := by
  apply GuardedSystem.after_withGhost_of_forall
  apply forall_mem_quietMinutes
  simp [quietMinute, Calls.record, receivedBy, sentBy]

/-- The user with two errands is at the office. -/
def errandsArrival : List (Act (Fin 1) (Fin 1)) :=
  errandsMorning ++ [errandsPlan] ++ quietMinutes 1 479

theorem errandsArrival_after (as : List (Act (Fin 1) (Fin 1))) :
    (posteCalls oneCounter).after (World.init oneCounter, Calls.init) (errandsArrival ++ as) =
      (posteCalls oneCounter).after
        (((poste oneCounter).after (World.init oneCounter)
          (errandsMorning ++ [errandsPlan])).atMinute 480, Calls.init) as := by
  have hghost : (posteCalls oneCounter).after (World.init oneCounter, Calls.init)
      (errandsMorning ++ [errandsPlan]) = ((poste oneCounter).after (World.init oneCounter)
        (errandsMorning ++ [errandsPlan]), Calls.init) := by
    apply GuardedSystem.after_withGhost_of_forall
    simp [errandsMorning, errandsPlan, midnight, wakeUps, List.range_succ, Calls.record,
      receivedBy, sentBy]
  have hidle : Idle oneCounter
      ((poste oneCounter).after (World.init oneCounter) (errandsMorning ++ [errandsPlan])) 1 :=
    ⟨by decide, by decide, by decide, by decide⟩
  have hquiet := (quiet_minutes hidle 478 oneCounter_quiet_morning).2
  rw [errandsArrival, GuardedSystem.after_append, GuardedSystem.after_append, hghost,
    calls_quiet, hquiet]
  rfl

theorem errandsArrival_runs {C : World (Fin 1) (Fin 1) → Act (Fin 1) (Fin 1) → Prop}
    (hquiet : ∀ m, ∀ a ∈ quietMinute (O := Fin 1) (U := Fin 1) m, ∀ w, C w a)
    (hmorning : ∀ a ∈ errandsMorning ++ [errandsPlan], ∀ w, C w a)
    {as : List (Act (Fin 1) (Fin 1))}
    (h : ((poste oneCounter).restrict C).Runs (((poste oneCounter).after (World.init oneCounter)
      (errandsMorning ++ [errandsPlan])).atMinute 480) as) :
    ((poste oneCounter).restrict C).Runs (World.init oneCounter) (errandsArrival ++ as) := by
  rw [errandsArrival, List.append_assoc, GuardedSystem.runs_append,
    GuardedSystem.restrict_after]
  refine ⟨GuardedSystem.Runs.restrict_of_forall _ (by decide) hmorning, ?_⟩
  exact (runs_quiet_restrict hquiet ⟨by decide, by decide, by decide, by decide⟩ 478
    oneCounter_quiet_morning as).mpr h

/-- The user does not get the reply to its first ticket request, and asks again. -/
def errandsGivenUp : List (Act (Fin 1) (Fin 1)) :=
  errandsOpening ++ [Act.user 0 (.nextService 0 [0]), .user 0 (.sendTicket 0),
    .user 0 (.receiveTicketFails 0), .user 0 (.nextService 0 []), .user 0 (.sendTicket 0),
    .ticket (.receive ⟨1, .ticketRequest ⟨1000, 0⟩⟩), .ticket (.reply 1000)]

/-- The reply to the first request cannot be sent, and the second errand is done. -/
def errandsRetry : List (Act (Fin 1) (Fin 1)) :=
  errandsOpening ++ [Act.user 0 (.nextService 0 [0]), .user 0 (.sendTicket 0),
    .ticket (.receive ⟨1, .ticketRequest ⟨1000, 0⟩⟩), .user 0 (.receiveTicketFails 0),
    .ticket (.replyFails 1000), .ticket .count, .user 0 (.nextService 0 []),
    .user 0 (.sendTicket 0), .ticket (.receive ⟨1, .ticketRequest ⟨1000, 0⟩⟩),
    .ticket (.reply 1000), .ticket .count,
    .user 0 (.receiveTicket 0 ⟨1000, .ticketResponse ⟨100, 1⟩⟩), .oper 0 .wake, .oper 0 .waitOpen,
    .oper 0 .enter, .oper 0 .canWork, .oper 0 (.takeFree 0), .user 0 (.findSeats ⟨0, 1⟩),
    .user 0 (.takeSeat ⟨0, 1⟩ [0] 0), .user 0 (.readOperator ⟨0, 1⟩ 0),
    .user 0 (.readStart ⟨0, 1⟩ 0 101), .user 0 (.sendRequest ⟨0, 1⟩ 0 101 481),
    .oper 0 (.stillOpen 0), .oper 0 (.receive 0 ⟨30101, .serviceRequest ⟨1000, 1⟩⟩),
    .oper 0 (.countRequest 0 ⟨1000, 1⟩)] ++ List.replicate 5 Act.section ++
  [Act.oper 0 (.serve 0 ⟨1000, 1⟩ 0), .oper 0 (.reply 0 ⟨1000, 1⟩ 5)]

theorem replies_matched_second_errand : Matched
    ((posteCalls oneCounter).after (World.init oneCounter, Calls.init)
      (errandsArrival ++ errandsRetry)).2
    (.user 0 (.receiveDone ⟨0, 1⟩ 0 481 ⟨1000, .serviceDone ⟨101, 1, 0, 5⟩⟩ ⟨101, 1, 0, 5⟩)) := by
  apply replies_matched
  rw [List.append_assoc]
  refine errandsArrival_runs ?_ ?_ (by decide +kernel)
  · simp [quietMinute, StartsClean]
  · simp [errandsMorning, errandsPlan, midnight, wakeUps, List.range_succ, StartsClean]

/-- A user that asks again before its first reply is out of the way reads the first reply. -/
theorem left_over_ticket : ¬ ∀ (as : List (Act (Fin 1) (Fin 1))) (a : Act (Fin 1) (Fin 1)),
    (poste oneCounter).Runs (World.init oneCounter) (as ++ [a]) →
    Matched ((posteCalls oneCounter).after (World.init oneCounter, Calls.init) as).2 a := by
  intro hmatches
  have hruns : ((poste oneCounter).restrict fun _ _ => True).Runs (World.init oneCounter)
      (errandsArrival ++ (errandsGivenUp ++
        [Act.user 0 (.receiveTicket 0 ⟨1000, .ticketResponse ⟨100, 0⟩⟩)])) :=
    errandsArrival_runs (fun _ _ _ _ => trivial) (fun _ _ _ => trivial) (by decide)
  rw [← List.append_assoc] at hruns
  have hmatched := hmatches _ _ hruns.of_restrict
  rw [errandsArrival_after] at hmatched
  exact absurd hmatched.2 (by decide)

end PosteItaliane
