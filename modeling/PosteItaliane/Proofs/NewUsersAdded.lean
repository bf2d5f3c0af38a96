import PosteItaliane.Model.NewUsers
import Mathlib.Algebra.BigOperators.Ring.Finset

/-!
# The users that are added are the ones asked for

Any number of `new_users` processes share the add-users queue, and the director looks at it
once in each iteration. A client may be interrupted or fail to send, and an answer may be
lost; a request that is in the queue is still taken once and by its own number, and nobody is
told of users that have not been added.
-/

namespace PosteItaliane

open Framework Framework.Mailbox

variable {N : Type}

/-- The client whose request a step puts in the queue. -/
def AddUsersAct.asks : AddUsersAct N → Option N
  | .client c .send => some c
  | _ => none

/-- The request that the director takes in a step. -/
def AddUsersAct.taken : AddUsersAct N → Option NewUsersRequest
  | .director (.receive _ r) => some r
  | _ => none

/-- The users that the director adds in a step. -/
def AddUsersAct.added (a : AddUsersAct N) : ℤ := (a.taken.map NewUsersRequest.nNewUsers).getD 0

/-- No receive fails, so that neither side goes on with a buffer that nobody has written. A
client that is interrupted ends at once. -/
def AddUsersAct.Receives : AddUsersAct N → Prop
  | .client _ (.receiveFails _) | .director (.receiveFails _) => False
  | _ => True

instance decidableReceives : ∀ a : AddUsersAct N, Decidable a.Receives
  | .client _ .send | .client _ .sendFails | .client _ (.receive _) | .client _ .interrupted =>
    isTrue trivial
  | .client _ (.receiveFails _) | .director (.receiveFails _) => isFalse id
  | .director (.receive _ _) | .director .noMessage | .director (.reply _ _)
  | .director (.replyFails _ _) => isTrue trivial

/-- The request of a client. -/
def Clients.request (clients : Clients N) (c : N) : NewUsersRequest :=
  ⟨clients.pid c, NewUsers.numNewUsers (clients.arg c)⟩

/-- The request in a message. -/
def AddUsersMessage.request? (m : AddUsersMessage) : Option NewUsersRequest :=
  match m.body with
  | .request r => some r
  | .done _ => none

/-- The message comes from a client, or answers one whose request has been taken. -/
def AddUsersMessage.Known (clients : Clients N) (taken : List NewUsersRequest)
    (m : AddUsersMessage) : Prop :=
  (∃ c, m = ⟨msgTypeAddUsersRequest, .request (clients.request c)⟩) ∨
    ∃ c d, m = ⟨clients.pid c, .done d⟩ ∧ clients.request c ∈ taken

/-- The requests taken by the director in a run. -/
def requestsTaken (as : List (AddUsersAct N)) : List NewUsersRequest :=
  as.filterMap AddUsersAct.taken

/-- What has become of the requests that were sent in the steps `as`. -/
structure AddedAsAsked [DecidableEq N] (clients : Clients N) (as : List (AddUsersAct N))
    (s : AddUsers N) : Prop where
  once : ∀ c, tally AddUsersAct.taken as (clients.request c) +
    tally AddUsersMessage.request? s.queue (clients.request c) = tally AddUsersAct.asks as c
  fresh : ∀ c, s.clients c = .boot → tally AddUsersAct.asks as c = 0
  atMostOnce : ∀ c, tally AddUsersAct.asks as c ≤ 1
  known : ∀ m ∈ s.queue, m.Known clients (requestsTaken as)
  replying : ∀ pid status, s.director = .replying pid status →
    ∃ c, pid = clients.pid c ∧ clients.request c ∈ requestsTaken as
  told : ∀ c, s.clients c = .exited true → clients.request c ∈ requestsTaken as
  ours : ∀ r ∈ requestsTaken as, ∃ c, r = clients.request c

theorem Clients.request_injective (clients : Clients N) : Function.Injective clients.request := by
  intro c d h
  exact clients.pid_injective (congrArg NewUsersRequest.senderPid h)

theorem requestsTaken_snoc (as : List (AddUsersAct N)) (a : AddUsersAct N) :
    requestsTaken (as ++ [a]) = requestsTaken as ++ a.taken.toList := by
  cases htaken : a.taken <;> simp [requestsTaken, htaken]

theorem mem_requestsTaken_snoc {as : List (AddUsersAct N)} {r : NewUsersRequest}
    (h : r ∈ requestsTaken as) (a : AddUsersAct N) : r ∈ requestsTaken (as ++ [a]) := by
  rw [requestsTaken_snoc]
  exact List.mem_append_left _ h

theorem AddUsersMessage.Known.snoc {clients : Clients N} {as : List (AddUsersAct N)}
    {m : AddUsersMessage} (h : m.Known clients (requestsTaken as)) (a : AddUsersAct N) :
    m.Known clients (requestsTaken (as ++ [a])) := by
  obtain hrequest | ⟨c, d, rfl, htaken⟩ := h
  · exact Or.inl hrequest
  · exact Or.inr ⟨c, d, rfl, mem_requestsTaken_snoc htaken a⟩

variable [DecidableEq N]

theorem addedAsAsked_init (clients : Clients N) : AddedAsAsked clients [] AddUsers.init where
  once _ := rfl
  fresh _ _ := rfl
  atMostOnce _ := Nat.zero_le 1
  known _ hm := by cases hm
  replying _ _ h := by cases h
  told _ h := by cases h
  ours _ hr := by cases hr

section Step

variable {clients : Clients N} {as : List (AddUsersAct N)} {s : AddUsers N}

theorem AddedAsAsked.request_of_type (h : AddedAsAsked clients as s)
    (hten : ∀ c, clients.pid c ≠ msgTypeAddUsersRequest) {m : AddUsersMessage}
    (hm : firstAddUsers s.queue msgTypeAddUsersRequest = some m) :
    ∃ c, m = ⟨msgTypeAddUsersRequest, .request (clients.request c)⟩ := by
  have htype := List.find?_some hm
  obtain hrequest | ⟨c, d, rfl, -⟩ := h.known m (List.mem_of_find?_eq_some hm)
  · exact hrequest
  · exact absurd (by simpa using htype) (hten c)

theorem AddedAsAsked.done_of_type (h : AddedAsAsked clients as s)
    (hten : ∀ c, clients.pid c ≠ msgTypeAddUsersRequest) {c : N} {m : AddUsersMessage}
    (hm : firstAddUsers s.queue (clients.pid c) = some m) :
    clients.request c ∈ requestsTaken as := by
  have htype := List.find?_some hm
  obtain ⟨c', rfl⟩ | ⟨c', d, rfl, htaken⟩ := h.known m (List.mem_of_find?_eq_some hm)
  · exact absurd (by simpa using htype) (hten c).symm
  · obtain rfl := clients.pid_injective (by simpa using htype)
    exact htaken

theorem AddedAsAsked.client_keep (h : AddedAsAsked clients as s) {c : N} {b : NewUsers.Act}
    {queue : List AddUsersMessage} {p : NewUsers.Phase} (hsend : b ≠ .send)
    (hqueue : ∀ m ∈ queue, m ∈ s.queue)
    (hrequests : ∀ r, tally AddUsersMessage.request? queue r =
      tally AddUsersMessage.request? s.queue r)
    (hboot : p ≠ .boot) (htold : p = .exited true → clients.request c ∈ requestsTaken as) :
    AddedAsAsked clients (as ++ [.client c b])
      { s with clients := Function.update s.clients c p, queue := queue } := by
  have hasks : (AddUsersAct.client c b).asks = none := by
    cases b <;> first | rfl | exact absurd rfl hsend
  have htaken : (AddUsersAct.client c b).taken = none := rfl
  have hrun : requestsTaken (as ++ [.client c b]) = requestsTaken as := by
    rw [requestsTaken_snoc, htaken, Option.toList_none, List.append_nil]
  refine ⟨?_, ?_, ?_, ?_, ?_, ?_, ?_⟩
  · intro d
    rw [tally_send, tally_send, hasks, htaken, hrequests]
    exact h.once d
  · intro d hd
    rw [tally_send, hasks]
    by_cases hdc : d = c
    · subst d
      exact absurd (by simpa using hd) hboot
    · exact h.fresh d (by simpa [hdc] using hd)
  · intro d
    rw [tally_send, hasks]
    exact h.atMostOnce d
  · intro m hm
    exact (h.known m (hqueue m hm)).snoc _
  · rw [hrun]
    exact h.replying
  · rw [hrun]
    intro d hd
    by_cases hdc : d = c
    · subst d
      exact htold (by simpa using hd)
    · exact h.told d (by simpa [hdc] using hd)
  · rw [hrun]
    exact h.ours

theorem AddedAsAsked.send (h : AddedAsAsked clients as s) {c : N} (hboot : s.clients c = .boot) :
    AddedAsAsked clients (as ++ [.client c .send]) (s.next clients (.client c .send)) := by
  have hrun : requestsTaken (as ++ [.client c .send]) = requestsTaken as := by
    rw [requestsTaken_snoc]
    exact List.append_nil _
  have hasks : (AddUsersAct.client c .send).asks = some c := rfl
  refine ⟨?_, ?_, ?_, ?_, ?_, ?_, ?_⟩
  · intro d
    have hhit : hit (some (clients.request c)) (clients.request d) = hit (some c) d := by
      simp only [hit, Option.some.injEq, clients.request_injective.eq_iff]
    show _ + tally _ (s.queue ++ [⟨_, .request (clients.request c)⟩]) _ = _
    rw [tally_send, tally_send, tally_send, hasks, ← hhit, ← h.once d]
    exact (Nat.add_assoc _ _ _).symm
  · intro d hd
    have hdc : d ≠ c := by
      rintro rfl
      simp [AddUsers.next, NewUsers.next] at hd
    rw [tally_send, hasks, h.fresh d (by simpa [AddUsers.next, hdc] using hd)]
    simp [hit, hdc.symm]
  · intro d
    rw [tally_send, hasks]
    by_cases hdc : d = c
    · subst d
      rw [h.fresh c hboot, hit_some_self]
    · have hone := h.atMostOnce d
      simpa [hit, Ne.symm hdc] using hone
  · intro m hm
    rcases List.mem_append.mp hm with hold | hnew
    · exact (h.known m hold).snoc _
    · exact Or.inl ⟨c, List.mem_singleton.mp hnew⟩
  · rw [hrun]
    exact h.replying
  · rw [hrun]
    intro d hd
    by_cases hdc : d = c
    · subst d
      simp [AddUsers.next, NewUsers.next] at hd
    · exact h.told d (by simpa [AddUsers.next, hdc] using hd)
  · rw [hrun]
    exact h.ours

theorem AddedAsAsked.director_keep (h : AddedAsAsked clients as s) {b : CheckNewUsers.Act}
    {queue : List AddUsersMessage} {p : CheckNewUsers.Phase}
    (htaken : (AddUsersAct.director b : AddUsersAct N).taken = none)
    (hrequests : ∀ r, tally AddUsersMessage.request? queue r =
      tally AddUsersMessage.request? s.queue r)
    (hknown : ∀ m ∈ queue, m.Known clients (requestsTaken as))
    (hreplying : ∀ pid status, p ≠ .replying pid status) :
    AddedAsAsked clients (as ++ [.director b]) { s with director := p, queue := queue } := by
  have hrun : requestsTaken (as ++ [.director b]) = requestsTaken as := by
    rw [requestsTaken_snoc, htaken, Option.toList_none, List.append_nil]
  have hasks : (AddUsersAct.director b : AddUsersAct N).asks = none := rfl
  refine ⟨?_, ?_, ?_, ?_, ?_, ?_, ?_⟩
  · intro c
    rw [tally_send, tally_send, hasks, htaken, hrequests]
    exact h.once c
  · intro c hc
    rw [tally_send, hasks]
    exact h.fresh c hc
  · intro c
    rw [tally_send, hasks]
    exact h.atMostOnce c
  · rw [hrun]
    exact hknown
  · intro pid status hp
    exact absurd hp (hreplying pid status)
  · rw [hrun]
    exact h.told
  · rw [hrun]
    exact h.ours

theorem AddedAsAsked.receive (h : AddedAsAsked clients as s)
    (hten : ∀ c, clients.pid c ≠ msgTypeAddUsersRequest) {m : AddUsersMessage}
    {r : NewUsersRequest} (ha : s.Enabled clients (.director (.receive m r))) :
    AddedAsAsked clients (as ++ [.director (.receive m r)])
      (s.next clients (.director (.receive m r))) := by
  obtain ⟨-, hm, -, hreads⟩ := ha
  obtain ⟨c, rfl⟩ := h.request_of_type hten hm
  have hr : clients.request c = r := hreads
  have hrun : requestsTaken (as ++ [.director
      (.receive ⟨msgTypeAddUsersRequest, .request (clients.request c)⟩ r)]) =
      requestsTaken as ++ [r] := by
    rw [requestsTaken_snoc]
    rfl
  have hmem : clients.request c ∈ requestsTaken as ++ [r] := by simp [hr]
  have hasks : (AddUsersAct.director (.receive
      ⟨msgTypeAddUsersRequest, .request (clients.request c)⟩ r) : AddUsersAct N).asks = none := rfl
  refine ⟨?_, ?_, ?_, ?_, ?_, ?_, ?_⟩
  · intro d
    have hqueue := tally_receive hm AddUsersMessage.request? (clients.request d)
    rw [tally_send, tally_send, hasks, hit_none, Nat.add_zero, ← h.once d, hqueue]
    show _ + hit (some r) _ + tally _ (afterAddUsers s.queue _) _ =
      _ + (_ + hit (some (clients.request c)) _)
    rw [← hr]
    exact (Nat.add_assoc _ _ _).trans (congrArg _ (Nat.add_comm _ _))
  · intro d hd
    rw [tally_send, hasks]
    exact h.fresh d hd
  · intro d
    rw [tally_send, hasks]
    exact h.atMostOnce d
  · intro m' hm'
    exact (h.known m' (mem_of_mem_rest hm')).snoc _
  · rw [hrun]
    rintro pid status ⟨⟩
    exact ⟨c, congrArg NewUsersRequest.senderPid hr.symm, hmem⟩
  · intro d hd
    exact mem_requestsTaken_snoc (h.told d hd) _
  · rw [hrun]
    intro r' hr'
    rcases List.mem_append.mp hr' with hold | hnew
    · exact h.ours r' hold
    · exact ⟨c, (List.mem_singleton.mp hnew).trans hr.symm⟩

end Step

theorem AddedAsAsked.step {clients : Clients N}
    (hten : ∀ c, clients.pid c ≠ msgTypeAddUsersRequest) {as : List (AddUsersAct N)}
    {s : AddUsers N} (h : AddedAsAsked clients as s) {a : AddUsersAct N}
    (ha : s.Enabled clients a) (hreceives : a.Receives) :
    AddedAsAsked clients (as ++ [a]) (s.next clients a) := by
  cases a with
  | client c b =>
    cases b with
    | send => exact h.send ha
    | receive m =>
      obtain ⟨-, hm, hsize⟩ := ha
      have htaken := h.done_of_type hten hm
      refine h.client_keep (by simp) (fun m' hm' => mem_of_mem_rest hm') (fun r => ?_)
        (by simp [NewUsers.next]) fun _ => htaken
      have hqueue := tally_receive hm AddUsersMessage.request? r
      -- the answer is not a request, and a request would not fit
      have hnone : m.request? = none := by
        obtain ⟨mtype, body⟩ := m
        cases body with
        | request r' => exact absurd hsize (by simp [AddUsersBody.size])
        | done d => rfl
      rw [hnone, hit_none, Nat.add_zero] at hqueue
      exact hqueue.symm
    | sendFails =>
      exact h.client_keep (by simp) (fun _ hm => hm) (fun _ => rfl) (by simp [NewUsers.next])
        (by simp [NewUsers.next])
    | interrupted =>
      exact h.client_keep (by simp) (fun _ hm => hm) (fun _ => rfl) (by simp [NewUsers.next])
        (by simp [NewUsers.next])
    | receiveFails success => exact hreceives.elim
  | director b =>
    cases b with
    | receive m r => exact h.receive hten ha
    | noMessage => exact h.director_keep rfl (fun _ => rfl) h.known (by simp [CheckNewUsers.next])
    | receiveFails senderPid => exact hreceives.elim
    | reply senderPid status =>
      obtain ⟨hphase, -⟩ := ha
      obtain ⟨c, rfl, htaken⟩ := h.replying senderPid status hphase
      refine h.director_keep rfl (fun r => ?_) (fun m hm => ?_)
        (by simp [CheckNewUsers.next])
      · exact tally_send AddUsersMessage.request? s.queue ⟨clients.pid c, .done ⟨status⟩⟩ r
      · rcases List.mem_append.mp hm with hold | hnew
        · exact h.known m hold
        · exact Or.inr ⟨c, ⟨status⟩, List.mem_singleton.mp hnew, htaken⟩
    | replyFails senderPid status =>
      exact h.director_keep rfl (fun _ => rfl) h.known (by simp [CheckNewUsers.next])

theorem addedAsAsked_run {clients : Clients N}
    (hten : ∀ c, clients.pid c ≠ msgTypeAddUsersRequest) (as : List (AddUsersAct N))
    (h : ((addUsers clients).restrict fun _ a => a.Receives).Runs AddUsers.init as) :
    AddedAsAsked clients as ((addUsers clients).after AddUsers.init as) :=
  ((addUsers clients).restrict fun _ a => a.Receives).trace_invariant (addedAsAsked_init clients)
    (fun _ _ _ hs ha => hs.step hten ha.1 ha.2) as h

omit [DecidableEq N] in
theorem sum_requests [Fintype N] (clients : Clients N) {rs : List NewUsersRequest}
    (h : ∀ r ∈ rs, ∃ c, r = clients.request c) :
    (rs.map NewUsersRequest.nNewUsers).sum =
      ∑ c, (rs.count (clients.request c) : ℤ) * NewUsers.numNewUsers (clients.arg c) := by
  classical
  induction rs with
  | nil => simp
  | cons r rs ih =>
    obtain ⟨d, rfl⟩ := h r List.mem_cons_self
    have hhit (c : N) : (if clients.request d = clients.request c then 1 else 0) =
        if d = c then 1 else 0 := by simp only [clients.request_injective.eq_iff]
    simp only [List.map_cons, List.sum_cons, List.count_cons, beq_iff_eq, hhit, Nat.cast_add,
      add_mul, Finset.sum_add_distrib, ← ih fun r hr => h r (List.mem_cons_of_mem _ hr)]
    simp [Clients.request, add_comm]

omit [DecidableEq N] in
theorem count_requestsTaken (as : List (AddUsersAct N)) (r : NewUsersRequest) :
    (requestsTaken as).count r = tally AddUsersAct.taken as r := by
  rw [requestsTaken, List.count_filterMap]
  simp [tally, beq_eq_decide]

omit [DecidableEq N] in
theorem sum_added (as : List (AddUsersAct N)) :
    (as.map AddUsersAct.added).sum = ((requestsTaken as).map NewUsersRequest.nNewUsers).sum := by
  induction as using List.reverseRecOn with
  | nil => rfl
  | append_singleton as a ih =>
    rw [requestsTaken_snoc, List.map_append, List.sum_append, ih, List.map_append, List.sum_append]
    cases htaken : a.taken <;> simp [AddUsersAct.added, htaken]

/-- The client has put its request in the queue, and it is not there any more. -/
def Handled (clients : Clients N) (as : List (AddUsersAct N)) (s : AddUsers N) (c : N) : Prop :=
  0 < tally AddUsersAct.asks as c ∧
    tally AddUsersMessage.request? s.queue (clients.request c) = 0

instance decidableHandled (clients : Clients N) (as : List (AddUsersAct N)) (s : AddUsers N)
    (c : N) : Decidable (Handled clients as s c) := inferInstanceAs (Decidable (_ ∧ _))

theorem AddedAsAsked.tally_taken {clients : Clients N} {as : List (AddUsersAct N)}
    {s : AddUsers N} (h : AddedAsAsked clients as s) (c : N) :
    tally AddUsersAct.taken as (clients.request c) = if Handled clients as s c then 1 else 0 := by
  have honce := h.once c
  have hmost := h.atMostOnce c
  by_cases hhandled : Handled clients as s c
  · obtain ⟨hasked, hqueue⟩ := hhandled
    rw [if_pos ⟨hasked, hqueue⟩]
    omega
  · rw [if_neg hhandled]
    have hnot : ¬ (0 < tally AddUsersAct.asks as c ∧
      tally AddUsersMessage.request? s.queue (clients.request c) = 0) := hhandled
    omega

theorem AddedAsAsked.handled_of_taken {clients : Clients N} {as : List (AddUsersAct N)}
    {s : AddUsers N} (h : AddedAsAsked clients as s) {c : N}
    (htaken : clients.request c ∈ requestsTaken as) : Handled clients as s c := by
  have hcount := List.count_pos_iff.mpr htaken
  rw [count_requestsTaken, h.tally_taken] at hcount
  by_contra hnot
  rw [if_neg hnot] at hcount
  exact absurd hcount (Nat.lt_irrefl 0)

theorem AddedAsAsked.sum_handled [Fintype N] {clients : Clients N} {as : List (AddUsersAct N)}
    {s : AddUsers N} (h : AddedAsAsked clients as s) : (as.map AddUsersAct.added).sum =
      ∑ c, (if Handled clients as s c then NewUsers.numNewUsers (clients.arg c) else 0) := by
  rw [sum_added, sum_requests clients h.ours]
  refine Finset.sum_congr rfl fun c _ => ?_
  rw [count_requestsTaken, h.tally_taken]
  split <;> simp

/-- Whatever the order of the steps, the users added are the numbers asked for by the clients
whose requests have left the queue, each counted once; and whoever reports success is one of
them. -/
theorem users_added_as_asked [Fintype N] (clients : Clients N)
    (hten : ∀ c, clients.pid c ≠ msgTypeAddUsersRequest) (as : List (AddUsersAct N))
    (h : ((addUsers clients).restrict fun _ a => a.Receives).Runs AddUsers.init as) :
    (as.map AddUsersAct.added).sum =
        ∑ c, (if Handled clients as ((addUsers clients).after AddUsers.init as) c
          then NewUsers.numNewUsers (clients.arg c) else 0) ∧
      ∀ c, ((addUsers clients).after AddUsers.init as).clients c = .exited true →
        Handled clients as ((addUsers clients).after AddUsers.init as) c := by
  have hkept := addedAsAsked_run hten as h
  exact ⟨hkept.sum_handled, fun c hc => hkept.handled_of_taken (hkept.told c hc)⟩

/-- The first asks for two users, the second for one by default. -/
def twoClients : Clients (Fin 2) where
  pid c := 500 + c
  arg c := if c = 0 then some 2 else some 0
  pid_pos := by decide
  pid_injective := by decide

/-- The second client is answered, and the first is still waiting. -/
def secondAnswered : List (AddUsersAct (Fin 2)) :=
  [.client 0 .send, .client 1 .send,
    .director (.receive ⟨10, .request ⟨500, 2⟩⟩ ⟨500, 2⟩), .director (.replyFails 500 1),
    .director (.receive ⟨10, .request ⟨501, 1⟩⟩ ⟨501, 1⟩), .director (.reply 501 1),
    .client 1 (.receive ⟨501, .done ⟨1⟩⟩)]

theorem users_added_as_asked_two :
    (secondAnswered.map AddUsersAct.added).sum =
        ∑ c, (if Handled twoClients secondAnswered
          ((addUsers twoClients).after AddUsers.init secondAnswered) c
          then NewUsers.numNewUsers (twoClients.arg c) else 0) ∧
      ∀ c, ((addUsers twoClients).after AddUsers.init secondAnswered).clients c = .exited true →
        Handled twoClients secondAnswered
          ((addUsers twoClients).after AddUsers.init secondAnswered) c :=
  users_added_as_asked twoClients (by decide) secondAnswered (by decide)

end PosteItaliane
