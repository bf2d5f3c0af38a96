import PosteItaliane.Model.PosteClients
import PosteItaliane.Proofs.DaysOwed
import PosteItaliane.Proofs.NewUsersAdded
import PosteItaliane.Proofs.NewUsersReplies

/-!
# The users that are created for the clients

The users of the simulation are those of the configuration and those that the clients have asked
for. While the director still creates some of them, it holds the request that asks for them and
has not answered it: a client that reports success has had all its users created.
-/

namespace PosteItaliane

open Framework Framework.Mailbox

variable {O U N : Type} [Fintype O] [Fintype U] [DecidableEq O] [DecidableEq U] [DecidableEq N]

theorem posteClients_world (site : Site O U) (clients : Clients N) :
    (posteClients site clients).Refines (poste site) (fun s w => s.world = w)
      ClientsAct.inWorld := by
  rintro s w a rfl ha
  cases a with
  | step a => exact ⟨ha.1, rfl⟩
  | client c a => rfl
  | look b =>
    obtain ⟨-, hlooks, -⟩ := ha
    cases b <;> first | exact ⟨hlooks, rfl⟩ | rfl

theorem posteClients_addUsers (site : Site O U) (clients : Clients N) :
    (posteClients site clients).Refines (addUsers clients) (fun s t => s.addUsers = t)
      ClientsAct.inAddUsers := by
  rintro s t a rfl ha
  cases a with
  | step a => rfl
  | client c a => exact ⟨ha, rfl⟩
  | look b => exact ⟨ha.1, rfl⟩

/-- No receive on the add-users queue fails. -/
def ClientsAct.Receives : ClientsAct O U N → Prop
  | .step _ => True
  | .client c a => (AddUsersAct.client c a).Receives
  | .look b => (AddUsersAct.director b : AddUsersAct N).Receives

instance decidableClientsReceives : ∀ a : ClientsAct O U N, Decidable a.Receives
  | .step _ => isTrue trivial
  | .client c a => inferInstanceAs (Decidable (AddUsersAct.client c a).Receives)
  | .look b => inferInstanceAs (Decidable (AddUsersAct.director b : AddUsersAct N).Receives)

/-- The steps of the add-users queue in a run. -/
def addUsersSteps (as : List (ClientsAct O U N)) : List (AddUsersAct N) :=
  as.filterMap ClientsAct.inAddUsers

omit [Fintype O] [Fintype U] [DecidableEq O] [DecidableEq U] [DecidableEq N] in
theorem addUsersSteps_snoc (as : List (ClientsAct O U N)) (a : ClientsAct O U N) :
    addUsersSteps (as ++ [a]) = addUsersSteps as ++ a.inAddUsers.toList := by
  cases hin : a.inAddUsers <;> simp [addUsersSteps, hin]

theorem posteClients_run (site : Site O U) (clients : Clients N) (as : List (ClientsAct O U N))
    (h : ((posteClients site clients).restrict fun _ a => a.Receives).Runs
      (PosteClients.init site) as) :
    ((addUsers clients).restrict fun _ a => a.Receives).Runs AddUsers.init (addUsersSteps as) ∧
      ((posteClients site clients).after (PosteClients.init site) as).addUsers =
        (addUsers clients).after AddUsers.init (addUsersSteps as) := by
  have hinit : (PosteClients.init site : PosteClients O U N).addUsers = AddUsers.init := rfl
  refine ((posteClients_addUsers site clients).restrict ?_).run hinit as h
  intro s t a b _ _ hreceives hb
  cases a with
  | step a => cases hb
  | client c a => exact Option.some.inj hb ▸ hreceives
  | look a => exact Option.some.inj hb ▸ hreceives

/-- The client whose request the director holds has no answer, and none is on its way. -/
def Unanswered (clients : Clients N) (s : AddUsers N) : Prop :=
  ∀ c status, s.director = .replying (clients.pid c) status →
    s.clients c ≠ .exited true ∧ ∀ m ∈ s.queue, m.mtype ≠ clients.pid c

section AddUsers

variable {clients : Clients N} {as : List (AddUsersAct N)} {s : AddUsers N}

theorem AddedAsAsked.not_taken (h : AddedAsAsked clients as s) {c : N} {mtype : ℕ}
    (hm : ⟨mtype, .request (clients.request c)⟩ ∈ s.queue) :
    clients.request c ∉ requestsTaken as := by
  have hwaiting : 0 < tally AddUsersMessage.request? s.queue (clients.request c) := by
    apply List.countP_pos_iff.mpr
    exact ⟨_, hm, by simp [AddUsersMessage.request?]⟩
  have honce := h.once c
  have hmost := h.atMostOnce c
  rw [← List.count_pos_iff, count_requestsTaken]
  omega

theorem Unanswered.client (h : Unanswered clients s) {d : N} {b : NewUsers.Act}
    (ha : s.Enabled clients (.client d b))
    (hten : ∀ c, clients.pid c ≠ msgTypeAddUsersRequest)
    (hreceives : (AddUsersAct.client d b).Receives) :
    Unanswered clients (s.next clients (.client d b)) := by
  intro c status hreply
  obtain ⟨hclient, hqueue⟩ := h c status hreply
  have hkeep {p : NewUsers.Phase} (hp : p ≠ .exited true) :
      Function.update s.clients d p c ≠ .exited true := by
    by_cases hcd : c = d
    · subst d
      rwa [Function.update_self]
    · rwa [Function.update_of_ne hcd]
  cases b with
  | send =>
    refine ⟨hkeep (by simp [NewUsers.next]), fun m hm => ?_⟩
    rcases List.mem_append.mp hm with hold | hnew
    · exact hqueue m hold
    · rw [List.mem_singleton.mp hnew]
      exact (hten c).symm
  | receive m =>
    -- its answer would be a message to the client whose request is held
    have hcd : c ≠ d := by
      rintro rfl
      have hmem := List.mem_of_find?_eq_some ha.2.1
      exact hqueue m hmem (by simpa using List.find?_some ha.2.1)
    exact ⟨by simpa [AddUsers.next, hcd] using hclient,
      fun m' hm' => hqueue m' (mem_of_mem_rest hm')⟩
  | receiveFails success => exact hreceives.elim
  | sendFails | interrupted => exact ⟨hkeep (by simp [NewUsers.next]), hqueue⟩

theorem AddedAsAsked.unanswered (h : AddedAsAsked clients as s)
    (hten : ∀ c, clients.pid c ≠ msgTypeAddUsersRequest) {m : AddUsersMessage}
    {r : NewUsersRequest} (ha : s.Enabled clients (.director (.receive m r))) :
    Unanswered clients (s.next clients (.director (.receive m r))) := by
  intro c status hreply
  obtain ⟨-, hm, -, hreads⟩ := ha
  obtain ⟨d, rfl⟩ := h.request_of_type hten hm
  have hr : clients.request d = r := hreads
  subst hr
  have hpid : clients.pid d = clients.pid c := by
    simpa [Clients.request] using (CheckNewUsers.Phase.replying.inj hreply).1
  obtain rfl := clients.pid_injective hpid
  have hnot := h.not_taken (List.mem_of_find?_eq_some hm)
  refine ⟨fun hexited => hnot (h.told d hexited), fun m' hm' htype => ?_⟩
  obtain ⟨e, rfl⟩ | ⟨e, done, rfl, htaken⟩ := h.known m' (mem_of_mem_rest hm')
  · exact hten d htype.symm
  · obtain rfl := clients.pid_injective htype
    exact hnot htaken

theorem Unanswered.step (h : Unanswered clients s) (hkept : AddedAsAsked clients as s)
    (hten : ∀ c, clients.pid c ≠ msgTypeAddUsersRequest) {a : AddUsersAct N}
    (ha : s.Enabled clients a) (hreceives : a.Receives) :
    Unanswered clients (s.next clients a) := by
  cases a with
  | client d b => exact h.client ha hten hreceives
  | director b =>
    cases b with
    | receive m r => exact hkept.unanswered hten ha
    | receiveFails senderPid => exact hreceives.elim
    | noMessage | reply senderPid status | replyFails senderPid status =>
      intro c status' hreply
      cases hreply

end AddUsers

theorem unanswered_run {clients : Clients N}
    (hten : ∀ c, clients.pid c ≠ msgTypeAddUsersRequest) (as : List (AddUsersAct N))
    (h : ((addUsers clients).restrict fun _ a => a.Receives).Runs AddUsers.init as) :
    Unanswered clients ((addUsers clients).after AddUsers.init as) :=
  ((addUsers clients).restrict fun _ a => a.Receives).trace_invariant_of
    (P := fun _ s => Unanswered clients s) (addedAsAsked_run hten) (fun _ _ h => by cases h)
    (fun _ _ _ hkept hs ha => hs.step hkept hten ha.1 ha.2) as h

theorem dir_of_not_atNewUsers (site : Site O U) {w : World O U} {a : Act O U}
    (ha : w.Enabled site a) (hnot : a.atNewUsers = false) :
    (w.next site a).dir.numUsers = w.dir.numUsers ∧
      ∀ n, (w.next site a).dir.phase = .starting n → ∃ k, n ≤ k ∧ w.dir.phase = .starting k := by
  cases a with
  | director b =>
    obtain ⟨-, hb, -⟩ := ha
    cases b
    case startUser u k => exact ⟨rfl, fun n hn => by cases hn; exact ⟨k + 1, Nat.le_succ k, hb⟩⟩
    case receiveNewUsers k => cases hnot
    all_goals exact ⟨rfl, fun n hn => by cases hn⟩
  | oper o b => exact ⟨rfl, fun n hn => ⟨n, le_rfl, hn⟩⟩
  | user u b => exact ⟨rfl, fun n hn => ⟨n, le_rfl, hn⟩⟩
  | ticket b => exact ⟨rfl, fun n hn => ⟨n, le_rfl, hn⟩⟩
  | «section» => exact ⟨rfl, fun n hn => ⟨n, le_rfl, hn⟩⟩

theorem world_answer (site : Site O U) (w : World O U) (status : ℤ) :
    w.next site (.director (if status = 0 then .newUsersFail else .replyNewUsers)) =
      { w with dir := { w.dir with phase := .clock } } := by
  split <;> rfl

/-- What the director counts and creates is what it has been asked for. -/
structure HoldsRequests (site : Site O U) (clients : Clients N) (as : List (ClientsAct O U N))
    (s : PosteClients O U N) : Prop where
  counted : s.world.dir.numUsers = site.config.numUsers +
    ((addUsersSteps as).map AddUsersAct.added).sum
  starting : ∀ n, s.world.dir.phase = .starting n → ∃ c status,
    s.addUsers.director = .replying (clients.pid c) status ∧
      (n : ℤ) ≤ NewUsers.numNewUsers (clients.arg c)

section Step

variable {site : Site O U} {clients : Clients N} {as : List (ClientsAct O U N)}
  {s : PosteClients O U N}

theorem HoldsRequests.apart (h : HoldsRequests site clients as s) {a : Act O U}
    (ha : (posteClients site clients).Enabled s (.step a)) :
    HoldsRequests site clients (as ++ [.step a])
      ((posteClients site clients).next s (.step a)) := by
  obtain ⟨henabled, hnot⟩ := ha
  obtain ⟨husers, hphase⟩ := dir_of_not_atNewUsers site henabled hnot
  have hrun : addUsersSteps (as ++ [.step a]) = addUsersSteps as :=
    (addUsersSteps_snoc as (.step a)).trans (List.append_nil _)
  constructor
  · rw [hrun]
    exact husers.trans h.counted
  · intro n hn
    obtain ⟨k, hk, hstarting⟩ := hphase n hn
    obtain ⟨c, status, hreply, hleft⟩ := h.starting k hstarting
    exact ⟨c, status, hreply, (Int.ofNat_le.mpr hk).trans hleft⟩

theorem HoldsRequests.client (h : HoldsRequests site clients as s) (c : N) (b : NewUsers.Act) :
    HoldsRequests site clients (as ++ [.client c b])
      ((posteClients site clients).next s (.client c b)) := by
  have hrun : addUsersSteps (as ++ [.client c b]) = addUsersSteps as ++ [.client c b] :=
    addUsersSteps_snoc as (.client c b)
  refine ⟨?_, h.starting⟩
  rw [hrun, List.map_append, List.sum_append]
  exact h.counted.trans (congrArg _ (add_zero _).symm)

theorem HoldsRequests.receive (h : HoldsRequests site clients as s)
    (hkept : AddedAsAsked clients (addUsersSteps as) s.addUsers)
    (hten : ∀ c, clients.pid c ≠ msgTypeAddUsersRequest) {m : AddUsersMessage}
    {r : NewUsersRequest} (ha : (posteClients site clients).Enabled s (.look (.receive m r))) :
    HoldsRequests site clients (as ++ [.look (.receive m r)])
      ((posteClients site clients).next s (.look (.receive m r))) := by
  obtain ⟨⟨-, hm, -, hreads⟩, -, hasks⟩ := ha
  have hnat : ((r.nNewUsers.toNat : ℕ) : ℤ) = r.nNewUsers := Int.toNat_of_nonneg hasks
  have hrun : addUsersSteps (as ++ [.look (.receive m r)]) =
      addUsersSteps as ++ [.director (.receive m r)] :=
    addUsersSteps_snoc as (.look (.receive m r))
  constructor
  · rw [hrun, List.map_append, List.sum_append, ← add_assoc, ← h.counted]
    show s.world.dir.numUsers + (r.nNewUsers.toNat : ℕ) =
      s.world.dir.numUsers + (r.nNewUsers + 0)
    rw [hnat, add_zero]
  · intro n hn
    obtain ⟨c, rfl⟩ := hkept.request_of_type hten hm
    have hr : clients.request c = r := hreads
    subst hr
    cases hn
    exact ⟨c, 1, rfl, hnat.le⟩

theorem HoldsRequests.keep (h : HoldsRequests site clients as s) {b : CheckNewUsers.Act}
    (htaken : (AddUsersAct.director b : AddUsersAct N).taken = none)
    (hworld : ((posteClients site clients).next s (.look b)).world =
      { s.world with dir := { s.world.dir with phase := .clock } }) :
    HoldsRequests site clients (as ++ [.look b])
      ((posteClients site clients).next s (.look b)) := by
  have hrun : addUsersSteps (as ++ [.look b]) = addUsersSteps as ++ [.director b] :=
    addUsersSteps_snoc as (.look b)
  have hadded : (AddUsersAct.director b : AddUsersAct N).added = 0 := by
    simp [AddUsersAct.added, htaken]
  constructor
  · rw [hrun, hworld]
    simp [hadded, h.counted]
  · intro n hn
    rw [hworld] at hn
    cases hn

theorem HoldsRequests.step (h : HoldsRequests site clients as s)
    (hkept : AddedAsAsked clients (addUsersSteps as) s.addUsers)
    (hten : ∀ c, clients.pid c ≠ msgTypeAddUsersRequest) {a : ClientsAct O U N}
    (ha : (posteClients site clients).Enabled s a) (hreceives : a.Receives) :
    HoldsRequests site clients (as ++ [a]) ((posteClients site clients).next s a) := by
  cases a with
  | step b => exact h.apart ha
  | client c b => exact h.client c b
  | look b =>
    cases b with
    | receive m r => exact h.receive hkept hten ha
    | receiveFails senderPid => exact hreceives.elim
    | noMessage => exact h.keep rfl rfl
    | reply senderPid status | replyFails senderPid status =>
      exact h.keep rfl (world_answer site s.world status)

end Step

/-- The users that have been created. -/
def World.created (w : World O U) : Finset U := {u | (w.users u).phase ≠ .notStarted}

omit [DecidableEq O] [DecidableEq U] in
theorem crowd_created (w : World O U) :
    w.crowd (fun _ => true) Utente.Phase.started = Fintype.card O + w.created.card := by
  have hstarted (u : U) : (w.marks (fun _ => true) Utente.Phase.started (.utente u)).toNat =
      if (w.users u).phase ≠ .notStarted then 1 else 0 := by
    simp only [World.marks]
    cases (w.users u).phase <;> rfl
  simp only [World.crowd, overProcs, hstarted, World.created, Finset.card_filter]
  simp [World.marks]

omit [DecidableEq N] [DecidableEq O] [DecidableEq U] in
/-- The users of the configuration and those of all requests taken, but for the ones that the
director is still creating. -/
theorem HoldsRequests.created {site : Site O U} {clients : Clients N}
    {as : List (ClientsAct O U N)} {s : PosteClients O U N} (h : HoldsRequests site clients as s)
    (hchildren : (s.world.crowd (fun _ => true) Utente.Phase.started : ℤ) +
      s.world.dir.phase.toStart = site.config.numOperators + s.world.dir.numUsers) :
    (s.world.created.card : ℤ) + s.world.dir.phase.toStart = site.config.numUsers +
      ((addUsersSteps as).map AddUsersAct.added).sum := by
  have hcounted := h.counted
  have hoperators := site.operators_started
  rw [crowd_created, Nat.cast_add] at hchildren
  omega

omit [DecidableEq O] [DecidableEq U] in
/-- The request of a client that has reported success has been taken, and it is not the one that
the director holds. -/
theorem HoldsRequests.told_le [Fintype N] {site : Site O U} {clients : Clients N}
    {as : List (ClientsAct O U N)} {s : PosteClients O U N}
    (h : HoldsRequests site clients as s)
    (hkept : AddedAsAsked clients (addUsersSteps as) s.addUsers)
    (hunanswered : Unanswered clients s.addUsers) :
    ∑ c, (if s.addUsers.clients c = .exited true then
        NewUsers.numNewUsers (clients.arg c) else 0) + s.world.dir.phase.toStart ≤
      ((addUsersSteps as).map AddUsersAct.added).sum := by
  have htold (c : N) : (if s.addUsers.clients c = .exited true then
      NewUsers.numNewUsers (clients.arg c) else 0) ≤
      if Handled clients (addUsersSteps as) s.addUsers c then
        NewUsers.numNewUsers (clients.arg c) else 0 := by
    have hpos := numNewUsers_pos (clients.arg c)
    by_cases hexited : s.addUsers.clients c = .exited true
    · rw [if_pos hexited, if_pos (hkept.handled_of_taken (hkept.told c hexited))]
    · rw [if_neg hexited]
      split <;> omega
  rw [hkept.sum_handled]
  cases hphase : s.world.dir.phase
  case starting n =>
    obtain ⟨d, status, hreply, hleft⟩ := h.starting n hphase
    have hwaits := (hunanswered d status hreply).1
    have hhandled : Handled clients (addUsersSteps as) s.addUsers d := by
      obtain ⟨e, hpid, htaken⟩ := hkept.replying _ status hreply
      obtain rfl := clients.pid_injective hpid
      exact hkept.handled_of_taken htaken
    -- what is left to create is a part of the request that the director holds
    have hshare : ∑ c, (if s.addUsers.clients c = .exited true then
        NewUsers.numNewUsers (clients.arg c) else 0) + (n : ℤ) =
        ∑ c, ((if s.addUsers.clients c = .exited true then
          NewUsers.numNewUsers (clients.arg c) else 0) + if c = d then (n : ℤ) else 0) := by
      simp [Finset.sum_add_distrib]
    refine hshare.le.trans (Finset.sum_le_sum fun c _ => ?_)
    by_cases hc : c = d
    · subst c
      simpa [hwaits, hhandled] using hleft
    · simpa [hc] using htold c
  all_goals
    refine (add_zero _).le.trans ?_
    exact Finset.sum_le_sum fun c _ => htold c

section Run

variable (site : Site O U) {clients : Clients N} (as : List (ClientsAct O U N))
  (h : ((posteClients site clients).restrict fun _ a => a.Receives).Runs
    (PosteClients.init site) as)

include h

theorem posteClients_kept (hten : ∀ c, clients.pid c ≠ msgTypeAddUsersRequest) :
    AddedAsAsked clients (addUsersSteps as)
      ((posteClients site clients).after (PosteClients.init site) as).addUsers := by
  obtain ⟨hruns, haddUsers⟩ := posteClients_run site clients as h
  rw [haddUsers]
  exact addedAsAsked_run hten _ hruns

theorem posteClients_unanswered (hten : ∀ c, clients.pid c ≠ msgTypeAddUsersRequest) :
    Unanswered clients
      ((posteClients site clients).after (PosteClients.init site) as).addUsers := by
  obtain ⟨hruns, haddUsers⟩ := posteClients_run site clients as h
  rw [haddUsers]
  exact unanswered_run hten _ hruns

theorem posteClients_holds (hten : ∀ c, clients.pid c ≠ msgTypeAddUsersRequest) :
    HoldsRequests site clients as
      ((posteClients site clients).after (PosteClients.init site) as) := by
  refine ((posteClients site clients).restrict fun _ a => a.Receives).trace_invariant_of
    (Q := fun as s => AddedAsAsked clients (addUsersSteps as) s.addUsers)
    (fun bs hbs => posteClients_kept site bs hbs hten) ?_
    (fun _ _ _ hkept hs ha => hs.step hkept hten ha.1 ha.2) as h
  exact ⟨(add_zero _).symm, fun n hn => by cases hn⟩

theorem posteClients_children :
    let s := (posteClients site clients).after (PosteClients.init site) as
    (s.world.crowd (fun _ => true) Utente.Phase.started : ℤ) + s.world.dir.phase.toStart =
      site.config.numOperators + s.world.dir.numUsers := by
  have hinit : (PosteClients.init site : PosteClients O U N).world = World.init site := rfl
  obtain ⟨hruns, hworld⟩ := (posteClients_world site clients).run hinit as h.of_restrict
  have hchildren := (poste_wakeUpsOwed site (as.filterMap ClientsAct.inWorld) hruns).children
  rw [← hworld] at hchildren
  exact hchildren

end Run

/-- At every moment the users that have been created, with those that the director has still to
create, are those of the configuration and those asked for by the clients whose requests have
left the queue, each counted once. -/
theorem created_as_asked [Fintype N] (site : Site O U) (clients : Clients N)
    (hten : ∀ c, clients.pid c ≠ msgTypeAddUsersRequest) (as : List (ClientsAct O U N))
    (h : ((posteClients site clients).restrict fun _ a => a.Receives).Runs
      (PosteClients.init site) as) :
    let s := (posteClients site clients).after (PosteClients.init site) as
    (s.world.created.card : ℤ) + s.world.dir.phase.toStart = site.config.numUsers +
      ∑ c, (if Handled clients (addUsersSteps as) s.addUsers c
        then NewUsers.numNewUsers (clients.arg c) else 0) := by
  have hholds := posteClients_holds site as h hten
  have hcreated := hholds.created (posteClients_children site as h)
  rwa [(posteClients_kept site as h hten).sum_handled] at hcreated

/-- One operator and one user, and two users that are not created with the simulation. -/
def roomForTwo : Site (Fin 1) (Fin 3) where
  config := { defaultConfig with numOperators := 1, numUsers := 1 }
  operatorPid _ := 101
  userPid u := 4000 + u
  ticketPid := 100
  userService _ := 0
  initialUsers := {0}
  operatorPid_pos := by decide
  userPid_pos := by decide
  operatorPid_injective := by decide
  userPid_injective := by decide
  pids_disjoint := by decide
  ticketPid_ne := by decide
  operators_started := rfl
  users_started := rfl

/-- The first client asks for two users and the director creates one of them, while the request
of the second is still in the queue. -/
def oneOfTwo : List (ClientsAct (Fin 1) (Fin 3) (Fin 2)) :=
  (midnight 1 ++ [Act.director (.resetSeats fun _ => 0), .director (.postDay 1),
    .director (.postDay 0), .director .dayStarted]).map .step ++
  [.client 0 .send, .client 1 .send, .look (.receive ⟨10, .request ⟨500, 2⟩⟩ ⟨500, 2⟩),
    .step (.director (.startUser 1 1))]

theorem created_as_asked_one_of_two :
    let s := (posteClients roomForTwo twoClients).after (PosteClients.init roomForTwo) oneOfTwo
    (s.world.created.card : ℤ) + s.world.dir.phase.toStart = roomForTwo.config.numUsers +
      ∑ c, (if Handled twoClients (addUsersSteps oneOfTwo) s.addUsers c
        then NewUsers.numNewUsers (twoClients.arg c) else 0) :=
  created_as_asked roomForTwo twoClients (by decide) oneOfTwo (by decide)

/-- Whatever the order of the steps, when clients have reported success, all the users they asked
for have been created beside those of the configuration. -/
theorem success_means_created [Fintype N] (site : Site O U) (clients : Clients N)
    (hten : ∀ c, clients.pid c ≠ msgTypeAddUsersRequest) (as : List (ClientsAct O U N))
    (h : ((posteClients site clients).restrict fun _ a => a.Receives).Runs
      (PosteClients.init site) as) :
    let s := (posteClients site clients).after (PosteClients.init site) as
    site.config.numUsers + ∑ c, (if s.addUsers.clients c = .exited true
      then NewUsers.numNewUsers (clients.arg c) else 0) ≤ s.world.created.card := by
  have hholds := posteClients_holds site as h hten
  have hcreated := hholds.created (posteClients_children site as h)
  have htold := hholds.told_le (posteClients_kept site as h hten)
    (posteClients_unanswered site as h hten)
  dsimp only
  omega

/-- The director creates the second user and answers. -/
def bothCreated : List (ClientsAct (Fin 1) (Fin 3) (Fin 2)) :=
  oneOfTwo ++ [.step (.director (.startUser 2 0)), .look (.reply 500 1),
    .client 0 (.receive ⟨500, .done ⟨1⟩⟩)]

theorem success_means_created_both :
    let s := (posteClients roomForTwo twoClients).after (PosteClients.init roomForTwo) bothCreated
    roomForTwo.config.numUsers + ∑ c, (if s.addUsers.clients c = .exited true
      then NewUsers.numNewUsers (twoClients.arg c) else 0) ≤ s.world.created.card :=
  success_means_created roomForTwo twoClients (by decide) bothCreated (by decide)

end PosteItaliane
