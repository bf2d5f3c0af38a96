import PosteItaliane.Model.NewUsersCalls
import Mathlib.Algebra.Order.BigOperators.Group.List
import Mathlib.Algebra.Order.Ring.Nat

/-!
# Answers to add-users requests

Every request starts its users, raises both counters and is answered once, and the counters
stay in step over any number of calls, unless a `fork` fails on the way. A receive that fails is
answered as well, to whatever process the buffer names: the calls keep to their requests as long
as such an answer does not get out.
-/

namespace PosteItaliane

open Framework

/-- What a call answers: one attempt for a request of at least one user, which starts them and
counts them, and nothing else. -/
structure AnsweredOnce (c : ChildCount) (call : NewUsersCall) : Prop where
  request : ∀ r, call.request = some r → 1 ≤ r.nNewUsers →
    ((checkNewUsersQueue c call).started : ℤ) = r.nNewUsers ∧
    (checkNewUsersQueue c call).count.numUsers = c.numUsers + r.nNewUsers ∧
    (checkNewUsersQueue c call).count.idx = c.idx + r.nNewUsers ∧
    (checkNewUsersQueue c call).answers.map Answer.mtype = [(r.senderPid : ℤ)]
  noRequest : call.request = none →
    (checkNewUsersQueue c call).started = 0 ∧ (checkNewUsersQueue c call).count = c ∧
    (checkNewUsersQueue c call).queue = call.queue ∧
    ∀ a ∈ (checkNewUsersQueue c call).answers, a.sent = false

/-- The messages a call sends. -/
def NewUsersCall.replies (call : NewUsersCall) : ℕ :=
  (checkNewUsersQueue ⟨0, 0, false⟩ call).answers.countP fun a => a.sent

def NewUsersCall.requests (call : NewUsersCall) : ℕ := call.request.toList.length

/-- Every call of the sequence answers as it should, the index stays one more than the
operators and users, and there are no more replies than requests. -/
structure AnsweredThroughout (numOperators : ℤ) (c : ChildCount) (calls : List NewUsersCall) :
    Prop where
  once : ∀ pre call post, calls = pre ++ call :: post →
    AnsweredOnce (newUsersCalls.after c pre) call
  index : ∀ pre, pre <+: calls → (newUsersCalls.after c pre).idx =
    1 + numOperators + (newUsersCalls.after c pre).numUsers
  replies : ∀ pre, pre <+: calls →
    (pre.map NewUsersCall.replies).sum ≤ (pre.map NewUsersCall.requests).sum

/-- A message that is taken is a request, all its users can be started, and nothing is sent after
a failure. -/
def NewUsersCall.Clean (call : NewUsersCall) : Prop :=
  match call.outcome with
  | .message m r forks _ => m.body = .request r ∧ r.nNewUsers ≤ forks
  | .noMessage => True
  | .fails senderPid accepted => ¬ (0 < senderPid ∧ accepted = true)

/-- As `new_users` sends them. -/
def NewUsersCall.AsksForSome (call : NewUsersCall) : Prop :=
  ∀ r, call.request = some r → 1 ≤ r.nNewUsers

theorem numNewUsers_pos (arg : Option ℤ) : 1 ≤ NewUsers.numNewUsers arg := by
  unfold NewUsers.numNewUsers
  split
  · split <;> omega
  · omega

theorem length_afterAddUsers {queue : List AddUsersMessage} {mtype : ℕ} {m : AddUsersMessage}
    (h : firstAddUsers queue mtype = some m) :
    (afterAddUsers queue mtype).length + 1 = queue.length := by
  have hperm := (Mailbox.perm_of_find? h).length_eq
  rw [List.length_cons] at hperm
  exact hperm.symm

theorem startUsers_of_le {left forks : ℕ} (h : left ≤ forks) (started : ℕ) (c : ChildCount) :
    startUsers left forks (started, c) = (started + left, { c with idx := c.idx + left }) := by
  induction left generalizing forks started c with
  | zero => simp [startUsers]
  | succ left ih =>
    obtain ⟨forks, rfl⟩ := Nat.exists_eq_add_of_le' h
    rw [← Nat.add_assoc, startUsers, ih (Nat.le_add_left left forks)]
    simp only [Prod.mk.injEq, ChildCount.mk.injEq, true_and, and_true]
    push_cast
    omega

theorem startUsers_of_lt {left forks : ℕ} (h : forks < left) (started : ℕ) (c : ChildCount) :
    startUsers left forks (started, c) =
      (started + forks, { c with idx := c.idx + forks, exited := true }) := by
  induction forks generalizing left started c with
  | zero =>
    obtain ⟨left, rfl⟩ := Nat.exists_eq_add_of_le' h
    simp [startUsers]
  | succ forks ih =>
    obtain ⟨left, rfl⟩ := Nat.exists_eq_add_of_lt h
    rw [startUsers, ih (by omega)]
    simp only [Prod.mk.injEq, ChildCount.mk.injEq, true_and, and_true]
    push_cast
    omega

theorem checkNewUsersQueue_of_le {c : ChildCount} (hrunning : c.exited = false)
    {r : NewUsersRequest} {forks : ℕ} (h : r.nNewUsers.toNat ≤ forks) (queue : List AddUsersMessage)
    (m : AddUsersMessage) (accepted : Bool) :
    checkNewUsersQueue c ⟨queue, .message m r forks accepted⟩ =
      { count := ⟨c.numUsers + r.nNewUsers, c.idx + r.nNewUsers.toNat, false⟩
        queue := (mqSend r.senderPid 1 accepted).enqueue
          (afterAddUsers queue msgTypeAddUsersRequest)
        started := r.nNewUsers.toNat
        answers := [mqSend r.senderPid 1 accepted] } := by
  simp [checkNewUsersQueue, startUsers_of_le h, hrunning]

theorem checkNewUsersQueue_of_lt (c : ChildCount) {r : NewUsersRequest} {forks : ℕ}
    (h : forks < r.nNewUsers.toNat) (queue : List AddUsersMessage) (m : AddUsersMessage)
    (accepted : Bool) : checkNewUsersQueue c ⟨queue, .message m r forks accepted⟩ =
      { count := ⟨c.numUsers + r.nNewUsers, c.idx + forks, true⟩
        queue := afterAddUsers queue msgTypeAddUsersRequest
        started := forks
        answers := [] } := by
  simp [checkNewUsersQueue, startUsers_of_lt h]

theorem answeredOnce_of_clean {c : ChildCount} (hrunning : c.exited = false)
    {call : NewUsersCall} (h : call.Clean) : AnsweredOnce c call := by
  obtain ⟨queue, outcome⟩ := call
  cases outcome with
  | message m r forks accepted =>
    obtain ⟨hbody, hforks⟩ : m.body = .request r ∧ r.nNewUsers ≤ forks := h
    constructor
    · intro r' hr' hpos
      have hrr : r = r' := by simpa [NewUsersCall.request, hbody] using hr'
      subst hrr
      have hnat : ((r.nNewUsers.toNat : ℕ) : ℤ) = r.nNewUsers := Int.toNat_of_nonneg (by omega)
      rw [checkNewUsersQueue_of_le hrunning (by omega)]
      exact ⟨hnat, rfl, congrArg (c.idx + ·) hnat, rfl⟩
    · intro hnone
      simp [NewUsersCall.request, hbody] at hnone
  | noMessage =>
    refine ⟨fun r hr => ?_, fun _ => ⟨rfl, rfl, rfl, fun a ha => ?_⟩⟩
    · cases hr
    · cases ha
  | fails senderPid accepted =>
    have hunsent : (mqSend senderPid 0 accepted).sent = false := by
      have h : ¬ (0 < senderPid ∧ accepted = true) := h
      cases accepted with
      | false => rfl
      | true => simpa [mqSend] using h
    refine ⟨fun r hr => ?_, fun _ => ⟨rfl, rfl, ?_, ?_⟩⟩
    · cases hr
    · simp [checkNewUsersQueue, Answer.enqueue, hunsent]
    · simp [checkNewUsersQueue, hunsent]

theorem clean_of_answeredOnce {c : ChildCount} (hrunning : c.exited = false)
    {call : NewUsersCall} (hvalid : call.Valid) (h : AnsweredOnce c call) : call.Clean := by
  obtain ⟨queue, outcome⟩ := call
  cases outcome with
  | message m r forks accepted =>
    have hbody : m.body = .request r := by
      by_contra hbody
      obtain ⟨-, -, hqueue, hunsent⟩ := h.noRequest (by simp [NewUsersCall.request, hbody])
      have hlength : (afterAddUsers queue msgTypeAddUsersRequest).length + 1 = queue.length :=
        length_afterAddUsers hvalid.1
      rcases Nat.lt_or_ge forks r.nNewUsers.toNat with hlt | hle
      · rw [checkNewUsersQueue_of_lt c hlt] at hqueue
        have hqueue : afterAddUsers queue msgTypeAddUsersRequest = queue := hqueue
        rw [hqueue] at hlength
        omega
      · rw [checkNewUsersQueue_of_le hrunning hle] at hqueue hunsent
        have hunsent : (mqSend r.senderPid 1 accepted).sent = false := by simpa using hunsent
        simp only [Answer.enqueue, hunsent, Bool.false_eq_true, if_false] at hqueue
        simp only [hqueue] at hlength
        omega
    refine ⟨hbody, ?_⟩
    by_contra hforks
    obtain ⟨hstarted, -⟩ := h.request r (by simp [NewUsersCall.request, hbody]) (by omega)
    rw [checkNewUsersQueue_of_lt c (by omega)] at hstarted
    dsimp only at hstarted
    omega
  | noMessage => trivial
  | fails senderPid accepted =>
    rintro ⟨hpos, rfl⟩
    obtain ⟨-, -, -, hunsent⟩ := h.noRequest rfl
    simp [checkNewUsersQueue, mqSend, hpos] at hunsent

theorem replies_le_requests {call : NewUsersCall} (h : call.Clean) :
    call.replies ≤ call.requests := by
  obtain ⟨queue, outcome⟩ := call
  cases outcome with
  | message m r forks accepted =>
    obtain ⟨hbody, hforks⟩ : m.body = .request r ∧ r.nNewUsers ≤ forks := h
    rw [NewUsersCall.replies, checkNewUsersQueue_of_le rfl (by omega)]
    simp only [NewUsersCall.requests, NewUsersCall.request, hbody, if_true]
    exact List.countP_le_length
  | noMessage => exact le_rfl
  | fails senderPid accepted =>
    have hunsent := (answeredOnce_of_clean (c := ⟨0, 0, false⟩) rfl h).noRequest rfl
    have hzero : (NewUsersCall.mk queue (.fails senderPid accepted)).replies = 0 := by
      apply List.countP_eq_zero.mpr
      intro a ha
      simp [hunsent.2.2.2 a ha]
    rw [hzero]
    exact Nat.zero_le _

theorem index_step {numOperators : ℤ} {c : ChildCount} (hrunning : c.exited = false)
    (h : c.idx = 1 + numOperators + c.numUsers) {call : NewUsersCall} (hclean : call.Clean)
    (hsome : call.AsksForSome) :
    (checkNewUsersQueue c call).count.idx =
      1 + numOperators + (checkNewUsersQueue c call).count.numUsers := by
  have honce := answeredOnce_of_clean hrunning hclean
  cases hrequest : call.request with
  | none =>
    rw [(honce.noRequest hrequest).2.1]
    exact h
  | some r =>
    obtain ⟨-, husers, hidx, -⟩ := honce.request r hrequest (hsome r hrequest)
    omega

/-- From the counters of the startup on, a sequence of calls answers every request once and
nothing else exactly when every message it takes is a request, no `fork` fails and no answer to a
receive that failed gets out. -/
theorem new_users_answered_iff (numOperators : ℤ) (c : ChildCount)
    (hidx : c.idx = 1 + numOperators + c.numUsers) (calls : List NewUsersCall)
    (h : newUsersCalls.Runs c calls) (hsome : ∀ call ∈ calls, call.AsksForSome) :
    AnsweredThroughout numOperators c calls ↔ ∀ call ∈ calls, call.Clean := by
  constructor
  · intro hanswered call hcall
    obtain ⟨pre, post, hsplit⟩ := List.append_of_mem hcall
    have hvalid := ((GuardedSystem.runs_append _ c pre (call :: post)).mp (hsplit ▸ h)).2.1
    exact clean_of_answeredOnce hvalid.1 hvalid.2 (hanswered.once pre call post hsplit)
  · intro hclean
    refine ⟨?_, ?_, ?_⟩
    · intro pre call post hsplit
      have hvalid := ((GuardedSystem.runs_append _ c pre (call :: post)).mp (hsplit ▸ h)).2.1
      exact answeredOnce_of_clean hvalid.1 (hclean call (by simp [hsplit]))
    · intro pre hpre
      have hruns : (newUsersCalls.restrict fun _ call => call.Clean ∧ call.AsksForSome).Runs c
          pre := by
        apply (GuardedSystem.runs_restrict_const _).mpr
        exact ⟨h.of_prefix _ hpre, fun call hcall =>
          ⟨hclean call (hpre.subset hcall), hsome call (hpre.subset hcall)⟩⟩
      exact (newUsersCalls.restrict fun _ call => call.Clean ∧ call.AsksForSome).invariant
        (P := fun c => c.idx = 1 + numOperators + c.numUsers) hidx
        (fun c call hc hcall => index_step hcall.1.1 hc hcall.2.1 hcall.2.2) pre hruns
    · intro pre hpre
      apply List.sum_le_sum
      intro call hcall
      exact replies_le_requests (hclean call (hpre.subset hcall))

instance decidableValid (call : NewUsersCall) : Decidable call.Valid := by
  rcases call with ⟨queue, m | _ | _⟩ <;> dsimp only [NewUsersCall.Valid]
  case message r forks accepted =>
    rcases m with ⟨mtype, r' | d⟩ <;> (dsimp only [AddUsersBody.ReadsAsRequest]; infer_instance)
  all_goals infer_instance

instance decidableNewUsersCalls (c : ChildCount) (call : NewUsersCall) :
    Decidable (newUsersCalls.Enabled c call) :=
  inferInstanceAs (Decidable (c.exited = false ∧ call.Valid))

/-- Process 500 asks for two users, and nobody else for any. -/
def twoMoreUsers : List NewUsersCall :=
  let r : NewUsersRequest := ⟨500, 2⟩
  [⟨[⟨10, .request r⟩], .message ⟨10, .request r⟩ r 2 true⟩, ⟨[⟨500, .done ⟨1⟩⟩], .noMessage⟩]

theorem new_users_answered_iff_two : AnsweredThroughout 1 ⟨1, 3, false⟩ twoMoreUsers ↔
    ∀ call ∈ twoMoreUsers, call.Clean :=
  new_users_answered_iff 1 ⟨1, 3, false⟩ (by decide) twoMoreUsers (by decide) (by
    intro call hcall r hr
    have hrequest : r = ⟨500, 2⟩ := by
      rcases List.mem_cons.mp hcall with rfl | hrest
      · exact (Option.some.inj hr).symm
      · rw [List.mem_singleton] at hrest
        subst hrest
        cases hr
    subst hrequest
    decide)

/-- The receive fails, and process 30000 is told that its request has failed. -/
theorem failure_answered : ¬ ∀ calls : List NewUsersCall, newUsersCalls.Runs ⟨1, 3, false⟩ calls →
    (∀ call ∈ calls, call.AsksForSome) → AnsweredThroughout 1 ⟨1, 3, false⟩ calls := by
  intro hanswers
  have hanswered := hanswers [⟨[], .fails 30000 true⟩] (by decide) (by
    intro call hcall r hr
    rw [List.mem_singleton] at hcall
    subst hcall
    cases hr)
  have hreplies := hanswered.replies _ List.prefix_rfl
  exact absurd hreplies (by decide)

/-- The step of the director with which it answers. -/
def answerStep (senderPid : ℕ) (status : ℤ) (accepted : Bool) : CheckNewUsers.Act :=
  if accepted && decide (0 < senderPid) then .reply senderPid status
  else .replyFails senderPid status

/-- The steps of the director that a call stands for. -/
def NewUsersCall.steps (call : NewUsersCall) : List CheckNewUsers.Act :=
  match call.outcome with
  | .message m r forks accepted =>
    .receive m r ::
      if forks < r.nNewUsers.toNat then [] else [answerStep r.senderPid 1 accepted]
  | .noMessage => [.noMessage]
  | .fails senderPid accepted =>
    [.receiveFails senderPid.toNat, answerStep senderPid.toNat 0 accepted]

variable {N : Type} [DecidableEq N]

theorem addUsers_answer (clients : Clients N) {s : AddUsers N} {senderPid : ℤ} {status : ℤ}
    (hreplying : s.director = .replying senderPid.toNat status) (accepted : Bool) :
    s.Enabled clients (.director (answerStep senderPid.toNat status accepted)) ∧
      s.next clients (.director (answerStep senderPid.toNat status accepted)) =
        { s with
          director := .idle
          queue := (mqSend senderPid status accepted).enqueue s.queue } := by
  by_cases hsent : accepted = true ∧ 0 < senderPid
  · obtain ⟨rfl, hpos⟩ := hsent
    have hnat : 0 < senderPid.toNat := by omega
    simp [answerStep, AddUsers.Enabled, AddUsers.next, CheckNewUsers.Enabled, CheckNewUsers.next,
      hreplying, mqSend, Answer.enqueue, hpos, hnat]
  · have hunsent : (accepted && decide (0 < senderPid)) = false := by simpa using hsent
    have hnat : (accepted && decide (0 < senderPid.toNat)) = false := by simpa using hsent
    rw [answerStep, hnat]
    simp [AddUsers.Enabled, AddUsers.next, CheckNewUsers.Enabled, CheckNewUsers.next, hreplying,
      mqSend, Answer.enqueue, hunsent]

/-- A call leaves the queue that its steps leave, and unless the director exits in it they come to
their end. -/
theorem addUsers_call (clients : Clients N) {s : AddUsers N} (hidle : s.director = .idle)
    {c : ChildCount} (hrunning : c.exited = false) {call : NewUsersCall}
    (hqueue : call.queue = s.queue) (h : call.Valid) :
    (addUsers clients).Runs s (call.steps.map .director) ∧
      ((addUsers clients).after s (call.steps.map .director)).queue =
        (checkNewUsersQueue c call).queue ∧
      (((addUsers clients).after s (call.steps.map .director)).director = .idle ↔
        (checkNewUsersQueue c call).count.exited = false) := by
  obtain ⟨queue, outcome⟩ := call
  obtain ⟨squeue, phases, director⟩ := s
  dsimp only at hidle hqueue
  subst hidle hqueue
  cases outcome with
  | message m r forks accepted =>
    have hreplying : (⟨afterAddUsers queue msgTypeAddUsersRequest, phases,
        .replying r.senderPid 1⟩ : AddUsers N).director =
        .replying (r.senderPid : ℤ).toNat 1 := rfl
    obtain ⟨henabled, hnext⟩ := addUsers_answer clients hreplying accepted
    rcases Nat.lt_or_ge forks r.nNewUsers.toNat with hlt | hle
    · have hsteps : NewUsersCall.steps ⟨queue, .message m r forks accepted⟩ = [.receive m r] := by
        simp [NewUsersCall.steps, hlt]
      rw [checkNewUsersQueue_of_lt c hlt, hsteps]
      exact ⟨⟨⟨rfl, h⟩, trivial⟩, rfl, iff_of_false (fun hd => by cases hd) (by simp)⟩
    · have hsteps : NewUsersCall.steps ⟨queue, .message m r forks accepted⟩ =
          [.receive m r, answerStep r.senderPid 1 accepted] := by
        simp [NewUsersCall.steps, Nat.not_lt.mpr hle]
      rw [checkNewUsersQueue_of_le hrunning hle, hsteps]
      refine ⟨⟨⟨rfl, h⟩, henabled, trivial⟩, congrArg AddUsers.queue hnext, iff_of_true ?_ rfl⟩
      exact congrArg AddUsers.director hnext
  | noMessage => exact ⟨⟨⟨rfl, h⟩, trivial⟩, rfl, iff_of_true rfl hrunning⟩
  | fails senderPid accepted =>
    have hreplying : (⟨queue, phases, .replying senderPid.toNat 0⟩ : AddUsers N).director =
        .replying senderPid.toNat 0 := rfl
    obtain ⟨henabled, hnext⟩ := addUsers_answer clients hreplying accepted
    refine ⟨⟨rfl, henabled, trivial⟩, congrArg AddUsers.queue hnext, iff_of_true ?_ hrunning⟩
    exact congrArg AddUsers.director hnext

/-- Every request in the queue asks for at least one user. -/
def RequestsAskForSome (s : AddUsers N) : Prop :=
  ∀ m ∈ s.queue, ∀ r, m.body = .request r → 1 ≤ r.nNewUsers

omit [DecidableEq N] in
theorem RequestsAskForSome.sent {s : AddUsers N} (h : RequestsAskForSome s) {m' : AddUsersMessage}
    (hsome : ∀ r, m'.body = .request r → 1 ≤ r.nNewUsers) :
    ∀ m ∈ s.queue ++ [m'], ∀ r, m.body = .request r → 1 ≤ r.nNewUsers := by
  intro m hm r hr
  rcases List.mem_append.mp hm with hold | hnew
  · exact h m hold r hr
  · rw [List.mem_singleton] at hnew
    subst hnew
    exact hsome r hr

theorem requests_ask_for_some (clients : Clients N) (as : List (AddUsersAct N))
    (h : (addUsers clients).Runs AddUsers.init as) :
    RequestsAskForSome ((addUsers clients).after AddUsers.init as) := by
  refine (addUsers clients).invariant (P := RequestsAskForSome) ?_ ?_ as h
  · intro m hm
    cases hm
  · intro s a hs _
    have hrest {mtype : ℕ} : ∀ m ∈ afterAddUsers s.queue mtype, ∀ r, m.body = .request r →
        1 ≤ r.nNewUsers := fun m hm => hs m (Mailbox.mem_of_mem_rest hm)
    cases a with
    | client c b =>
      cases b with
      | send =>
        apply hs.sent
        intro r hr
        cases hr
        exact numNewUsers_pos (clients.arg c)
      | receive m => exact hrest
      | sendFails => exact hs
      | interrupted => exact hs
      | receiveFails success => exact hs
    | director b =>
      cases b with
      | receive m r => exact hrest
      | reply senderPid status => exact hs.sent fun r hr => by cases hr
      | noMessage => exact hs
      | receiveFails senderPid => exact hs
      | replyFails senderPid status => exact hs

end PosteItaliane
