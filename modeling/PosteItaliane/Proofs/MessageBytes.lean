import PosteItaliane.Model.MessageBytes
import PosteItaliane.Proofs.Office
import PosteItaliane.Proofs.Protocol

/-!
# The queue of bytes and the queue of messages

The processes exchange bytes, and the model speaks of messages with a body of one of four
kinds. Beside the model a queue of bytes is kept, on which every step makes the calls of
`mq_send` and `mq_receive` that the source makes. It represents the messages throughout, and
whatever a process reads out of its buffer is what the model says, also when the message is
not of the kind that the process expects.
-/

namespace PosteItaliane

open Framework Framework.Memory Framework.Mailbox

/-- The two words of a body fit in 32 bits, as everything that is sent does. -/
def Body.Fits (body : Body) : Prop :=
  Memory.Fits 4 body.words.1 ∧ Memory.Fits 4 body.words.2

/-- The bytes stand for the message. -/
def Message.RepresentedBy (double : DoubleFormat) (m : Message) (raw : RawMessage) : Prop :=
  raw.mtype = m.mtype ∧ ∃ padding, padding.length = 4 ∧ raw.mtext = m.body.bytes double padding

/-- What the buffer of a receiver says after the message has been copied into it: the words of
the body, and behind them the rest of a `service_done` or what was there before. -/
def Body.ReadInto (double : DoubleFormat) (body : Body) (old new : List UInt8) : Prop :=
  (intValue (field 0 4 new), intValue (field 4 4 new)) = ((body.words.1 : ℤ), body.words.2) ∧
    match body with
    | .serviceDone d => intValue (field 8 4 new) = (d.serviceId : ℕ) ∧
        field 16 8 new = double.bytes d.serviceTime
    | _ => ∀ offset n, 8 ≤ offset → field offset n new = field offset n old

/-- What comes after the two words. -/
def Body.tail (double : DoubleFormat) (padding : List UInt8) : Body → List UInt8
  | .serviceDone d => intBytes 4 (d.serviceId : ℕ) ++ (padding ++ double.bytes d.serviceTime)
  | _ => []

theorem bytes_eq (double : DoubleFormat) (padding : List UInt8) (body : Body) :
    body.bytes double padding = intBytes 4 body.words.1 ++ (intBytes 4 body.words.2 ++
      body.tail double padding) := by
  cases body <;> simp [Body.bytes, Body.tail, Body.words, TicketRequest.bytes,
    TicketResponse.bytes, ServiceRequest.bytes, ServiceDone.bytes]

theorem length_bytes_body (double : DoubleFormat) {padding : List UInt8}
    (hpadding : padding.length = 4) (body : Body) :
    (body.bytes double padding).length = body.size := by
  cases body <;> simp [bytes_eq, Body.tail, Body.size, double.length_bytes, hpadding]

theorem fits_service (s : ServiceId) : Memory.Fits 4 (s : ℕ) := by
  have hs : (s : ℕ) < 6 := s.isLt
  simp only [Memory.Fits]
  omega

theorem readInto_overwrite {double : DoubleFormat} {padding : List UInt8}
    (hpadding : padding.length = 4) {body : Body} (hfits : body.Fits) (old : List UInt8) :
    body.ReadInto double old (overwrite (body.bytes double padding) old) := by
  have hlength := length_bytes_body double hpadding body
  have hsize : 8 ≤ body.size := by cases body <;> simp [Body.size]
  have hfirst : field 0 4 (overwrite (body.bytes double padding) old) =
      intBytes 4 body.words.1 := by
    rw [field_overwrite_new (by omega), bytes_eq, field_append_left (length_intBytes 4 _)]
  have hsecond : field (4 + 0) 4 (overwrite (body.bytes double padding) old) =
      intBytes 4 body.words.2 := by
    rw [field_overwrite_new (by omega), bytes_eq, field_append_right (length_intBytes 4 _),
      field_append_left (length_intBytes 4 _)]
  refine ⟨?_, ?_⟩
  · rw [hfirst, hsecond, intValue_of_fits hfits.1, intValue_of_fits hfits.2]
  · cases body with
    | serviceDone d =>
      have hservice : field (4 + (4 + 0)) 4 (overwrite ((Body.serviceDone d).bytes double padding)
          old) = intBytes 4 (d.serviceId : ℕ) := by
        rw [field_overwrite_new (by simp [hlength, Body.size]), bytes_eq,
          field_append_right (length_intBytes 4 _), field_append_right (length_intBytes 4 _),
          Body.tail, field_append_left (length_intBytes 4 _)]
      have htime : field (4 + (4 + (4 + (4 + 0)))) 8
          (overwrite ((Body.serviceDone d).bytes double padding) old) =
          double.bytes d.serviceTime := by
        rw [field_overwrite_new (by simp [hlength, Body.size]), bytes_eq,
          field_append_right (length_intBytes 4 _), field_append_right (length_intBytes 4 _),
          Body.tail, field_append_right (length_intBytes 4 _), field_append_right hpadding]
        simp [field, (double.length_bytes d.serviceTime).le]
      exact ⟨by rw [hservice, intValue_of_fits (fits_service d.serviceId)], htime⟩
    | _ =>
      intro offset n hoffset
      exact field_overwrite_old (by rw [hlength]; exact hoffset) old

def RepresentedAll (double : DoubleFormat) (queue : List Message) (raws : List RawMessage) : Prop :=
  List.Forall₂ (Message.RepresentedBy double) queue raws

theorem RepresentedAll.send {double : DoubleFormat} {queue : List Message}
    {raws : List RawMessage} (h : RepresentedAll double queue raws) (m : Message)
    {padding : List UInt8} (hpadding : padding.length = 4) :
    RepresentedAll double (queue ++ [m])
      (RawQueue.mqSend raws m.mtype (m.body.bytes double padding)) :=
  List.rel_append h (List.Forall₂.cons ⟨rfl, padding, hpadding, rfl⟩ List.Forall₂.nil)

/-- The outcome of `mq_receive` on the bytes is the one that the model gives the receive. -/
inductive ReceivesAlike (double : DoubleFormat) (queue : List Message) (raws : List RawMessage)
    (mtype : ℕ) (buffer : List UInt8) : RawQueue.Receipt × List RawMessage → Prop
  | noMessage (hnone : firstOfType queue mtype = none) :
    ReceivesAlike double queue raws mtype buffer (.noMessage, raws)
  | tooLong {m : Message} (hfirst : firstOfType queue mtype = some m)
      (hlong : buffer.length < m.body.size) :
    ReceivesAlike double queue raws mtype buffer (.tooLong, raws)
  | received {m : Message} {new : List UInt8} {raws' : List RawMessage}
      (hfirst : firstOfType queue mtype = some m) (hsize : m.body.size ≤ buffer.length)
      (hread : m.body.ReadInto double buffer new)
      (hrest : RepresentedAll double (afterReceive queue mtype) raws') :
    ReceivesAlike double queue raws mtype buffer (.received m.body.size new, raws')

theorem RepresentedAll.receivesAlike {double : DoubleFormat} {queue : List Message}
    {raws : List RawMessage} (h : RepresentedAll double queue raws)
    (hfits : ∀ m ∈ queue, m.body.Fits) (mtype : ℕ) (buffer : List UInt8) :
    ReceivesAlike double queue raws mtype buffer (RawQueue.mqReceive raws mtype buffer) := by
  have htypes : ∀ m raw, Message.RepresentedBy double m raw →
      decide (m.mtype = mtype) = decide (raw.mtype = mtype) := by
    rintro m raw ⟨htype, -⟩
    rw [htype]
  rcases receive_related htypes h with ⟨hnone, hraw⟩ | ⟨m, raw, hfirst, hraw, hrel, hrest⟩
  · rw [RawQueue.mqReceive, hraw]
    exact .noMessage hnone
  · obtain ⟨-, padding, hpadding, htext⟩ := hrel
    have hlength : raw.mtext.length = m.body.size := by
      rw [htext, length_bytes_body double hpadding]
    have hm := List.mem_of_find?_eq_some hfirst
    rw [RawQueue.mqReceive, hraw]
    by_cases hlong : buffer.length < raw.mtext.length
    · simp only [if_pos hlong]
      exact .tooLong hfirst (hlength ▸ hlong)
    · simp only [if_neg hlong]
      rw [hlength, htext]
      exact .received hfirst (by omega) (readInto_overwrite hpadding (hfits m hm) buffer) hrest

variable {O U : Type} [Fintype O] [Fintype U] [DecidableEq O] [DecidableEq U]

/-- The process ids are positive values of `pid_t`. -/
structure PidsFit (site : Site O U) : Prop where
  operator : ∀ o, Memory.Fits 4 (site.operatorPid o)
  user : ∀ u, Memory.Fits 4 (site.userPid u)
  ticket : Memory.Fits 4 site.ticketPid

/-- Every number that is on its way or may be sent fits in a message. -/
structure WordsFit (w : World O U) : Prop where
  queued : ∀ m ∈ w.sh.queue, m.body.Fits
  counter : Memory.Fits 4 w.ticket.ticketCounter
  session : ∀ u x, (w.users u).phase.session = some x → Memory.Fits 4 x.ticket
  held : ∀ o pid n, w.heldBy o = some (.service pid n) → Memory.Fits 4 n

theorem fits_increment (n : ℤ) : Memory.Fits 4 (ErogatoreTicket.increment n) := by
  have hlow := Int.le_bmod (x := n + 1) (m := 2 ^ 32) (by decide)
  have hhigh := Int.bmod_lt (x := n + 1) (m := 2 ^ 32) (by decide)
  simp only [Memory.Fits, ErogatoreTicket.increment]
  omega

theorem held_step (site : Site O U) {w : World O U} {a : Act O U} (ha : w.Enabled site a) {o : O}
    {l : Letter} (h : (w.next site a).heldBy o = some l) :
    w.heldBy o = some l ∨ ∃ k m, a = .oper o (.receive k m) ∧
      l = .service m.body.words.1 m.body.words.2 := by
  rw [World.heldBy] at h
  rcases oper_step site ha o with hsame | ⟨b, rfl, he, hnext⟩
  · rw [hsame] at h
    exact Or.inl h
  · rw [hnext] at h
    cases b
    case receive k m =>
      right
      simp only [Operatore.next] at h
      split at h
      · cases h
      · cases h
        exact ⟨k, m, rfl, rfl⟩
    all_goals
      left
      simp only [Operatore.Enabled] at he
      simp only [Operatore.next] at h
      grind [Operatore.Phase.held, World.heldBy]

omit [DecidableEq O] [DecidableEq U] in
theorem sentBy_fits {site : Site O U} (hpids : PidsFit site) {w : World O U} (h : WordsFit w)
    {a : Act O U} (ha : w.Enabled site a) {m : Message} (hm : sentBy site w a = some m) :
    m.body.Fits := by
  cases a with
  | user u b =>
    cases b <;> simp only [sentBy, reduceCtorEq, Option.some.injEq] at hm
    case sendTicket s =>
      subst hm
      exact ⟨hpids.user u, fits_service s⟩
    case sendRequest x k op start =>
      subst hm
      have hphase : (w.users u).phase = .sendRequest x k op start := ha.2
      exact ⟨hpids.user u, h.session u x (by rw [hphase]; rfl)⟩
  | oper o b =>
    cases b <;> simp only [sentBy, reduceCtorEq, Option.some.injEq] at hm
    case reply k q time =>
      subst hm
      have hphase : (w.opers o).phase = .reply k q time := ha.2
      exact ⟨hpids.operator o, h.held o q.senderPid q.ticketNumber (by
        rw [World.heldBy, hphase]
        rfl)⟩
  | ticket b =>
    cases b <;> simp only [sentBy, reduceCtorEq, Option.some.injEq] at hm
    case reply pid =>
      subst hm
      exact ⟨hpids.ticket, h.counter⟩
  | director b => cases hm
  | «section» => cases hm

theorem WordsFit.step {site : Site O U} (hpids : PidsFit site) {w : World O U} (h : WordsFit w)
    {a : Act O U} (ha : w.Enabled site a) : WordsFit (w.next site a) where
  queued m hm := by
    rcases mem_queue_step site ha hm with hold | hsent
    · exact h.queued m hold
    · exact sentBy_fits hpids h ha hsent
  counter := by
    cases a with
    | ticket b => cases b <;> first | exact h.counter | exact fits_increment _
    | _ => exact h.counter
  session u x hx := by
    rcases session_step site ha hx with hold | ⟨s, m, rfl, rfl, -⟩
    · exact h.session u x hold
    · obtain ⟨hm, -⟩ := firstOfType_eq_some ha.2.2.1
      exact (h.queued m hm).2
  held o pid n hheld := by
    rcases held_step site ha hheld with hold | ⟨k, m, rfl, hl⟩
    · exact h.held o pid n hold
    · obtain ⟨hm, -⟩ := firstOfType_eq_some ha.2.2.1
      cases hl
      exact (h.queued m hm).2

omit [DecidableEq O] in
theorem wordsFit_init (site : Site O U) : WordsFit (World.init site) where
  queued m hm := by cases hm
  counter := by simp only [World.init]; decide
  session u x hx := by
    by_cases h : u ∈ site.initialUsers <;> simp [World.init, h, Utente.Phase.session] at hx
  held o pid n h := by simp [World.heldBy, World.init, Operatore.Phase.held] at h

/-- The type that a step receives and the size of its buffer. -/
def Act.receiver (site : Site O U) : Act O U → Option (ℕ × ℕ)
  | .user u (.receiveTicket _ _) => some (site.userPid u, 8)
  | .user u (.receiveDone _ _ _ _ _) => some (site.userPid u, 24)
  | .oper o (.receive _ _) => some (serviceRequestType (site.operatorPid o), 8)
  | .ticket (.receive _) => some (msgTypeTicketRequest, 8)
  | _ => none

/-- The call on the queue of bytes that a step makes. What is in the buffer does not matter to
the queue. -/
def Act.callOnBytes (site : Site O U) (double : DoubleFormat) (padding : List UInt8)
    (raws : List RawMessage) (w : World O U) (a : Act O U) : List RawMessage :=
  match sentBy site w a, a.receiver site with
  | some m, _ => RawQueue.mqSend raws m.mtype (m.body.bytes double padding)
  | none, some (mtype, size) => (RawQueue.mqReceive raws mtype (List.replicate size 0)).2
  | none, none => raws

/-- The simulation in which every step comes with the contents of the padding, should it need
them. -/
def postePadded (site : Site O U) : GuardedSystem (World O U) (Act O U × List UInt8) where
  Enabled w a := (poste site).Enabled w a.1 ∧ a.2.length = 4
  next w a := w.next site a.1

instance (site : Site O U) (w : World O U) (a : Act O U × List UInt8) :
    Decidable ((postePadded site).Enabled w a) :=
  inferInstanceAs (Decidable (w.Enabled site a.1 ∧ a.2.length = 4))

/-- Apart from the padding it is the simulation. -/
theorem postePadded_refines (site : Site O U) :
    (postePadded site).Refines (poste site) (fun v w => v = w) fun a => some a.1 := by
  rintro w _ a rfl ha
  exact ⟨ha.1, rfl⟩

/-- The simulation with the queue of bytes beside it. -/
def posteBytes (site : Site O U) (double : DoubleFormat) :
    GuardedSystem (World O U × List RawMessage) (Act O U × List UInt8) :=
  (postePadded site).withGhost fun raws w a => a.1.callOnBytes site double a.2 raws w

theorem receiver_step (site : Site O U) {w : World O U} {a : Act O U} (ha : w.Enabled site a)
    {mtype size : ℕ} (h : a.receiver site = some (mtype, size)) : sentBy site w a = none ∧
      ∃ m, firstOfType w.sh.queue mtype = some m ∧ m.body.size ≤ size ∧
        (w.next site a).sh.queue = afterReceive w.sh.queue mtype := by
  cases a with
  | user u b =>
    cases b <;> simp only [Act.receiver, reduceCtorEq, Option.some.injEq, Prod.mk.injEq] at h
    case receiveTicket s m =>
      obtain ⟨rfl, rfl⟩ := h
      exact ⟨rfl, m, ha.2.2.1, ha.2.2.2, rfl⟩
    case receiveDone x k start m d =>
      obtain ⟨rfl, rfl⟩ := h
      exact ⟨rfl, m, ha.2.2.1, by cases m.body <;> simp [Body.size], rfl⟩
  | oper o b =>
    cases b <;> simp only [Act.receiver, reduceCtorEq, Option.some.injEq, Prod.mk.injEq] at h
    case receive k m =>
      obtain ⟨rfl, rfl⟩ := h
      exact ⟨rfl, m, ha.2.2.1, ha.2.2.2, rfl⟩
  | ticket b =>
    cases b <;> simp only [Act.receiver, reduceCtorEq, Option.some.injEq, Prod.mk.injEq] at h
    case receive m =>
      obtain ⟨rfl, rfl⟩ := h
      exact ⟨rfl, m, ha.2.1, ha.2.2, rfl⟩
  | director b => cases h
  | «section» => cases h

omit [DecidableEq O] [DecidableEq U] in
theorem receivedBy_of_receiver (site : Site O U) {a : Act O U} (h : a.receiver site = none) :
    receivedBy a = none := by
  cases a with
  | user u b => cases b <;> first | rfl | cases h
  | oper o b => cases b <;> first | rfl | cases h
  | ticket b => cases b <;> first | rfl | cases h
  | director b => rfl
  | «section» => rfl

/-- The bytes stand for the messages of the model, and every number fits. -/
structure BytesKept (double : DoubleFormat) (s : World O U × List RawMessage) : Prop where
  represented : RepresentedAll double s.1.sh.queue s.2
  words : WordsFit s.1

omit [Fintype O] [Fintype U] [DecidableEq O] [DecidableEq U] in
theorem BytesKept.receivesAlike {double : DoubleFormat} {s : World O U × List RawMessage}
    (h : BytesKept double s) (mtype : ℕ) (buffer : List UInt8) :
    ReceivesAlike double s.1.sh.queue s.2 mtype buffer (RawQueue.mqReceive s.2 mtype buffer) :=
  h.represented.receivesAlike h.words.queued mtype buffer

theorem BytesKept.step {site : Site O U} (hpids : PidsFit site) {double : DoubleFormat}
    {s : World O U × List RawMessage} (h : BytesKept double s) {a : Act O U × List UInt8}
    (ha : (posteBytes site double).Enabled s a) :
    BytesKept double ((posteBytes site double).next s a) where
  words := h.words.step hpids ha.1
  represented := by
    obtain ⟨hact, hpadding⟩ := ha
    have hqueue := queue_step site hact
    show RepresentedAll double (s.1.next site a.1).sh.queue
      (a.1.callOnBytes site double a.2 s.2 s.1)
    cases hreceiver : a.1.receiver site with
    | some r =>
      obtain ⟨mtype, size⟩ := r
      obtain ⟨hsent, m, hfirst, hsize, hnext⟩ := receiver_step site hact hreceiver
      have halike := h.receivesAlike mtype (List.replicate size 0)
      rw [Act.callOnBytes, hsent, hreceiver, hnext]
      show RepresentedAll double _ (RawQueue.mqReceive s.2 mtype (List.replicate size 0)).2
      generalize RawQueue.mqReceive s.2 mtype (List.replicate size 0) = outcome at *
      -- the receive takes what the model takes: nothing else is first, and it fits
      cases halike with
      | noMessage hnone =>
        rw [hnone] at hfirst
        cases hfirst
      | tooLong hfirst' hlong =>
        cases hfirst'.symm.trans hfirst
        rw [List.length_replicate] at hlong
        omega
      | received hfirst' hsize' hread hrest => exact hrest
    | none =>
      rw [receivedBy_of_receiver site hreceiver] at hqueue
      rw [Act.callOnBytes, hreceiver, hqueue]
      cases hsent : sentBy site s.1 a.1 with
      | none => simpa using h.represented
      | some m => exact h.represented.send m hpadding

theorem bytesKept_run (site : Site O U) (hpids : PidsFit site) (double : DoubleFormat)
    (as : List (Act O U × List UInt8))
    (h : (posteBytes site double).Runs (World.init site, []) as) :
    BytesKept double ((posteBytes site double).after (World.init site, []) as) :=
  (posteBytes site double).invariant ⟨List.Forall₂.nil, wordsFit_init site⟩
    (fun _ _ hs ha => hs.step hpids ha) as h

/-- The steps without a call on the queue. -/
def Act.Silent : Act O U → Prop
  | .user _ (.sendTicket _) | .user _ (.receiveTicket _ _) | .user _ (.sendRequest _ _ _ _) => False
  | .user _ (.receiveDone _ _ _ _ _) | .oper _ (.receive _ _) | .oper _ (.reply _ _ _) => False
  | .ticket (.receive _) | .ticket (.reply _) => False
  | _ => True

instance (a : Act O U) : Decidable a.Silent := by
  unfold Act.Silent
  split <;> infer_instance

omit [DecidableEq O] [DecidableEq U] in
theorem Act.Silent.callOnBytes {a : Act O U} (h : a.Silent) (site : Site O U)
    (double : DoubleFormat) (padding : List UInt8) (raws : List RawMessage) (w : World O U) :
    a.callOnBytes site double padding raws w = raws := by
  cases a with
  | user u b => cases b <;> first | rfl | cases h
  | oper o b => cases b <;> first | rfl | cases h
  | ticket b => cases b <;> first | rfl | cases h
  | director b => rfl
  | «section» => rfl

theorem postePadded_runs (site : Site O U) {padding : List UInt8} (hpadding : padding.length = 4)
    (w : World O U) (as : List (Act O U)) (h : (poste site).Runs w as) :
    (postePadded site).Runs w (as.map fun a => (a, padding)) := by
  induction as generalizing w with
  | nil => trivial
  | cons a as ih => exact ⟨⟨h.1, hpadding⟩, ih _ h.2⟩

theorem postePadded_after (site : Site O U) (padding : List UInt8) (w : World O U)
    (as : List (Act O U)) :
    (postePadded site).after w (as.map fun a => (a, padding)) = (poste site).after w as := by
  induction as generalizing w with
  | nil => rfl
  | cons a as ih => exact ih _

/-- The representation of the one time that the office below needs. -/
def fiveMinutes : DoubleFormat where
  bytes t := if t = 5 then [0, 0, 0, 0, 0, 0, 0x14, 0x40] else List.replicate 8 0
  length_bytes t := by split <;> rfl

/-- Up to the reply of the operator. -/
def officeServed : List (Act (Fin 2) (Fin 2)) :=
  officeTickets ++ (officeRequest ++ officeService.take 10)

def officeServedBytes : List (Act (Fin 2) (Fin 2) × List UInt8) :=
  (officeNight ++ officeWait ++ officeServed).map fun a => (a, [0, 0, 0, 0])

theorem officeServedBytes_runs :
    (posteBytes office fiveMinutes).Runs (World.init office, []) officeServedBytes := by
  rw [posteBytes, GuardedSystem.runs_withGhost]
  refine postePadded_runs office rfl _ _ ?_
  rw [GuardedSystem.runs_append, officeWait_after]
  exact ⟨officeWait_runs, by decide +kernel⟩

theorem officeServedBytes_after :
    (posteBytes office fiveMinutes).after (World.init office, []) officeServedBytes =
      (posteBytes office fiveMinutes).after (officeBeforeClosing, [])
        (officeServed.map fun a => (a, [0, 0, 0, 0])) := by
  have hsilent : ∀ a ∈ officeNight ++ officeWait, a.Silent := by
    intro a ha
    rcases List.mem_append.mp ha with ha | ha
    · exact (by decide : ∀ a ∈ officeNight, a.Silent) a ha
    · exact forall_mem_officeWait (by simp [quietMinute, Act.Silent]) (by decide) a ha
  have hnight : (posteBytes office fiveMinutes).after (World.init office, [])
      ((officeNight ++ officeWait).map fun a => (a, [0, 0, 0, 0])) = (officeBeforeClosing, []) := by
    have hkept : ∀ a ∈ (officeNight ++ officeWait).map fun a => (a, [0, 0, 0, 0]),
        ∀ raws w, a.1.callOnBytes office fiveMinutes a.2 raws w = raws := by
      intro a ha raws w
      obtain ⟨b, hb, rfl⟩ := List.mem_map.mp ha
      exact (hsilent b hb).callOnBytes office fiveMinutes _ raws w
    exact ((postePadded office).after_withGhost_of_forall _ hkept _ _).trans
      (by rw [postePadded_after, officeWait_after])
  rw [officeServedBytes, List.map_append, GuardedSystem.after_append]
  exact congrArg (fun s => (posteBytes office fiveMinutes).after s
    (officeServed.map fun a => (a, [0, 0, 0, 0]))) hnight

/-- The buffer of user 0 after it has received the reply. -/
def officeReply : List UInt8 :=
  [101, 0, 0, 0, 0, 0, 0, 0, 0, 0, 0, 0, 0, 0, 0, 0, 0, 0, 0, 0, 0, 0, 0x14, 0x40]

theorem office_pids_fit : PidsFit office := ⟨by decide, by decide, by decide⟩

/-- The state in which user 0 waits for the reply, which is there. -/
def officeReplied : World (Fin 2) (Fin 2) × List RawMessage :=
  (posteBytes office fiveMinutes).after (World.init office, []) officeServedBytes

theorem officeReplied_receives :
    RawQueue.mqReceive officeReplied.2 29999 (List.replicate 24 0xff) =
      (.received 24 officeReply, []) := by
  rw [officeReplied, officeServedBytes_after]
  decide +kernel

/-- In every state of every run, whoever calls `mq_receive` on the bytes, for any type and with
any buffer, gets what the model gives: nothing, an error because the first message is too long,
or its words and the rest of a `service_done`, with the buffer unchanged behind a shorter one. -/
theorem queue_of_bytes (site : Site O U) (hpids : PidsFit site) (double : DoubleFormat)
    (as : List (Act O U × List UInt8))
    (h : (posteBytes site double).Runs (World.init site, []) as) (mtype : ℕ)
    (buffer : List UInt8) :
    ReceivesAlike double ((posteBytes site double).after (World.init site, []) as).1.sh.queue
      ((posteBytes site double).after (World.init site, []) as).2 mtype buffer
      (RawQueue.mqReceive ((posteBytes site double).after (World.init site, []) as).2 mtype
        buffer) :=
  (bytesKept_run site hpids double as h).receivesAlike mtype buffer

theorem queue_of_bytes_reply :
    ReceivesAlike fiveMinutes officeReplied.1.sh.queue officeReplied.2 29999
      (List.replicate 24 0xff) (.received 24 officeReply, []) := by
  have hqueue := queue_of_bytes office office_pids_fit fiveMinutes officeServedBytes
    officeServedBytes_runs 29999 (List.replicate 24 0xff)
  rw [← officeReplied, officeReplied_receives] at hqueue
  exact hqueue

/-- What a user finds in its 24 bytes is a `service_done` that the model lets it read, if the
bytes name a service and a time at all. A shorter message of another kind gives its words, and
the service and the time are the ones that the buffer held before. -/
theorem done_of_bytes (site : Site O U) (hpids : PidsFit site) (double : DoubleFormat)
    (as : List (Act O U × List UInt8))
    (h : (posteBytes site double).Runs (World.init site, []) as) (u : U) (x : Utente.Session)
    (k : ℕ) (start : ℤ) (hwait : (((posteBytes site double).after (World.init site, []) as).1.users
      u).phase = .awaitDone x k start) (buffer new : List UInt8) (length : ℕ)
    (raws : List RawMessage)
    (hreceive : RawQueue.mqReceive ((posteBytes site double).after (World.init site, []) as).2
      (site.userPid u) buffer = (.received length new, raws)) (s : ServiceId) (t : ℚ)
    (hservice : intValue (field 8 4 new) = (s : ℕ)) (htime : field 16 8 new = double.bytes t) :
    ∃ m d, Utente.Enabled site u (((posteBytes site double).after (World.init site, []) as).1.users
        u) ((posteBytes site double).after (World.init site, []) as).1.sh
        (.receiveDone x k start m d) ∧
      (d.senderPid : ℤ) = intValue (field 0 4 new) ∧ d.ticketNumber = intValue (field 4 4 new) ∧
      d.serviceId = s ∧ double.bytes d.serviceTime = field 16 8 new := by
  have halike := (bytesKept_run site hpids double as h).receivesAlike (site.userPid u) buffer
  generalize (posteBytes site double).after (World.init site, []) as = r at *
  rw [hreceive] at halike
  rcases halike with _ | _ | @⟨⟨mtype, body⟩, _, _, hfirst, -, ⟨hwords, hrest⟩, -⟩
  obtain ⟨hsender, hnumber⟩ := Prod.mk.inj hwords
  cases body with
  | serviceDone d =>
    obtain ⟨hread, htimes⟩ := hrest
    have hsame : d.serviceId = s := by
      have hnat : ((d.serviceId : ℕ) : ℤ) = (s : ℕ) := hread.symm.trans hservice
      exact Fin.ext (by exact_mod_cast hnat)
    exact ⟨_, d, ⟨hwait, hfirst, rfl⟩, hsender.symm, hnumber.symm, hsame, htimes.symm⟩
  | ticketRequest r' =>
    exact ⟨_, ⟨r'.senderPid, _, s, t⟩, ⟨hwait, hfirst, rfl⟩, hsender.symm, hnumber.symm, rfl,
      htime.symm⟩
  | ticketResponse r' =>
    exact ⟨_, ⟨r'.generatorPid, _, s, t⟩, ⟨hwait, hfirst, rfl⟩, hsender.symm, hnumber.symm, rfl,
      htime.symm⟩
  | serviceRequest r' =>
    exact ⟨_, ⟨r'.senderPid, _, s, t⟩, ⟨hwait, hfirst, rfl⟩, hsender.symm, hnumber.symm, rfl,
      htime.symm⟩

theorem done_of_bytes_reply :
    ∃ m d, Utente.Enabled office 0 (officeReplied.1.users 0) officeReplied.1.sh
        (.receiveDone ⟨0, 0⟩ 0 1199 m d) ∧
      (d.senderPid : ℤ) = intValue (field 0 4 officeReply) ∧
      d.ticketNumber = intValue (field 4 4 officeReply) ∧ d.serviceId = 0 ∧
      fiveMinutes.bytes d.serviceTime = field 16 8 officeReply := by
  have hwait : (officeReplied.1.users 0).phase = .awaitDone ⟨0, 0⟩ 0 1199 := by
    rw [officeReplied, officeServedBytes_after]
    decide +kernel
  have hreceive := officeReplied_receives
  rw [officeReplied] at *
  exact done_of_bytes office office_pids_fit fiveMinutes officeServedBytes
    officeServedBytes_runs 0 ⟨0, 0⟩ 0 1199 hwait (List.replicate 24 0xff) officeReply 24 []
    hreceive 0 5 (by decide) (by decide +kernel)

end PosteItaliane
