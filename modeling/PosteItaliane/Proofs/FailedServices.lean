import PosteItaliane.Proofs.UserSeats

/-!
# Services that fail at the counter

`handle_service` takes a seat in the middle and frees it at its end. The two returns in
between, after `send_service_request` has failed and after `await_service_done` has returned
a negative ticket, leave the seat marked: from the failure to the return the call makes one
step, the one that counts the failure.
-/

namespace PosteItaliane

open Framework

variable {O U : Type} [Fintype O] [Fintype U] [DecidableEq O] [DecidableEq U]

/-- The steps with which a call that has taken seat `k` fails. -/
def Utente.Act.FailsAt (k : ℕ) : Utente.Act → Prop
  | .sendRequestFails _ j _ _ => j = k
  | .receiveDoneFails _ j _ => j = k
  | .receiveDone _ j _ _ d => j = k ∧ d.ticketNumber < 0
  | _ => False

/-- Between such a step and the return of the call. -/
def Utente.Phase.Failing (k : ℕ) : Utente.Phase → Prop
  | .countFailed _ seat leaves => seat = some k ∧ leaves = false
  | .returning seat leaves => seat = some k ∧ leaves = false
  | _ => False

/-- What the successful path does by the time it returns: the seat is free, and the call has
posted `stations_freed_event`. -/
def GivesSeatBack (site : Site O U) (w : World O U) (u : U) (k : ℕ) (call : List (Act O U)) :
    Prop :=
  (((poste site).after w call).sh.seats k).userStatus = .free ∧
    ∃ x, Act.user u (.signalFreed x k) ∈ call

/-- The steps that free a user's seat: a release of it, and midnight. -/
def FreesSeat (site : Site O U) (k : ℕ) (a : Act O U) : Prop :=
  match userSeatEvent site a with
  | some (.release _ j) => j = k
  | some (.clear p) => p k = true
  | _ => False

theorem failing_of_failsAt (site : Site O U) {w : World O U} {u : U} {k : ℕ} {a : Utente.Act}
    (ha : a.FailsAt k) : ((w.next site (.user u a)).users u).phase.Failing k := by
  cases a <;> try exact ha.elim
  case sendRequestFails x j op start =>
    have hj : j = k := ha
    simp [World.next, Utente.next, Utente.Phase.Failing, hj]
  case receiveDoneFails x j start =>
    have hj : j = k := ha
    simp [World.next, Utente.next, Utente.Phase.Failing, hj]
  case receiveDone x j start m d =>
    obtain ⟨hj, hd⟩ := ha
    simp [World.next, Utente.next, Utente.Phase.Failing, hj, hd]

omit [DecidableEq O] [DecidableEq U] in
theorem failing_own (site : Site O U) {u : U} {k : ℕ} {l : Utente.Local} {sh : Shared O U}
    {b : Utente.Act} (h : l.phase.Failing k) (hb : Utente.Enabled site u l sh b) :
    (∃ s seat leaves, b = .countFailed s seat leaves) ∨ ∃ seat leaves, b = .return seat leaves := by
  cases b <;> first
    | exact Or.inl ⟨_, _, _, rfl⟩
    | exact Or.inr ⟨_, _, rfl⟩
    | (simp only [Utente.Enabled] at hb
       grind [Utente.Phase.Failing])

theorem failing_step (site : Site O U) {w : World O U} {u : U} {k : ℕ} {a : Act O U}
    (h : (w.users u).phase.Failing k) (ha : w.Enabled site a)
    (hreturn : ∀ seat leaves, a ≠ .user u (.return seat leaves)) :
    ((w.next site a).users u).phase.Failing k ∧
      ∀ b, a = .user u b → ∃ s seat leaves, b = .countFailed s seat leaves := by
  cases a with
  | user v b =>
    by_cases hv : v = u
    · subst v
      rcases failing_own site h ha.2 with ⟨s, seat, leaves, rfl⟩ | ⟨seat, leaves, rfl⟩
      · have hphase : (w.users u).phase = .countFailed s seat leaves := ha.2.1
        rw [hphase] at h
        refine ⟨by simpa [World.next, Utente.next, Utente.Phase.Failing] using h, ?_⟩
        intro b hb
        exact ⟨s, seat, leaves, (Act.user.inj hb).2.symm⟩
      · exact absurd rfl (hreturn seat leaves)
    · refine ⟨by simpa [World.next, Ne.symm hv] using h, ?_⟩
      intro b hb
      exact absurd (Act.user.inj hb).1 hv
  | director b =>
    have hboot : ∀ v : U, Utente.Phase.Failing k .boot = Utente.Phase.Failing k .notStarted :=
      fun _ => rfl
    have hkeep := users_director (fun (_ : U) p => p.Failing k) hboot site ha.2.2 u
    exact ⟨hkeep ▸ h, fun b hb => by cases hb⟩
  | oper o b => exact ⟨h, fun b hb => by cases hb⟩
  | ticket b => exact ⟨h, fun b hb => by cases hb⟩
  | «section» => exact ⟨h, fun b hb => by cases hb⟩

theorem failing_run (site : Site O U) {w : World O U} {u : U} {k : ℕ}
    (h : (w.users u).phase.Failing k) (as : List (Act O U)) (hruns : (poste site).Runs w as)
    (hreturn : ∀ seat leaves, Act.user u (.return seat leaves) ∉ as) :
    ∀ b, Act.user u b ∈ as → ∃ s seat leaves, b = .countFailed s seat leaves := by
  induction as generalizing w with
  | nil => simp
  | cons a as ih =>
    have hstep := failing_step site h hruns.1 fun seat leaves ha =>
      hreturn seat leaves (by simp [ha])
    intro b hb
    rcases List.mem_cons.1 hb with hb | hb
    · exact hstep.2 b hb.symm
    · exact ih hstep.1 hruns.2 (fun seat leaves hmem => hreturn seat leaves (by simp [hmem])) b hb

theorem occupied_step (site : Site O U) {w : World O U} {k : ℕ} {a : Act O U}
    (h : (w.sh.seats k).userStatus = .occupied) (ha : w.Enabled site a)
    (hfree : ¬ FreesSeat site k a) : ((w.next site a).sh.seats k).userStatus = .occupied := by
  have hstep := userSeat_step site w a ha
  unfold FreesSeat at hfree
  cases hevent : userSeatEvent site a with
  | none =>
    rw [hevent] at hstep
    rw [hstep.2 k, h]
  | some e =>
    rw [hevent] at hstep hfree
    cases e with
    | take u j =>
      rw [hstep.2.2.2, takeUserSeat_userStatus, h]
      exact ite_self _
    | release u j =>
      have hjk : ¬ j = k := hfree
      rw [hstep.2.2, releaseUserSeat_userStatus, if_neg (Ne.symm hjk), h]
    | leave u => rw [hstep.2, h]
    | clear p =>
      obtain ⟨rfl, -, service, hseats⟩ := hstep
      have hk : ¬ k < site.numSeats := by simpa using hfree
      simp [hseats, resetSeats, hk, h]

theorem occupied_run (site : Site O U) {w : World O U} {k : ℕ}
    (h : (w.sh.seats k).userStatus = .occupied) (as : List (Act O U))
    (hruns : (poste site).Runs w as) (hfree : ∀ a ∈ as, ¬ FreesSeat site k a) :
    (((poste site).after w as).sh.seats k).userStatus = .occupied := by
  induction as generalizing w with
  | nil => exact h
  | cons a as ih =>
    have hnext := occupied_step site h hruns.1 (hfree a (by simp))
    exact ih hnext hruns.2 fun b hb => hfree b (by simp [hb])

/-- From the failure to the return: what the call does of its own, and what becomes of the
seat if nobody else frees it. -/
theorem failed_service_keeps_seat (site : Site O U) (w : World O U) (u : U) (k : ℕ)
    (a : Utente.Act) (as : List (Act O U)) (hfail : a.FailsAt k)
    (hruns : (poste site).Runs w
      (.user u a :: as ++ [.user u (.return (some k) false)]))
    (hreturn : ∀ seat leaves, Act.user u (.return seat leaves) ∉ as) :
    ¬ GivesSeatBack site w u k (.user u a :: as ++ [.user u (.return (some k) false)]) ∧
      ((w.sh.seats k).userStatus = .occupied → (∀ b ∈ as, ¬ FreesSeat site k b) →
        (((poste site).after w (.user u a :: as ++ [.user u (.return (some k) false)])).sh.seats
          k).userStatus = .occupied) := by
  constructor
  · intro hback
    obtain ⟨-, x, hx⟩ := hback
    have has : (poste site).Runs (w.next site (.user u a)) as :=
      ((GuardedSystem.runs_append _ _ _ _).1 hruns).1.2
    have hown := failing_run site (failing_of_failsAt site hfail) as has hreturn
    have hcases : Utente.Act.signalFreed x k = a ∨ Act.user u (.signalFreed x k) ∈ as := by
      simpa using hx
    rcases hcases with rfl | hmem
    · exact hfail
    · obtain ⟨s, seat, leaves, h⟩ := hown _ hmem
      cases h
  · intro hocc hfree
    apply occupied_run site hocc _ hruns
    intro b hb
    have hcases : b = .user u a ∨ b ∈ as ∨ b = .user u (.return (some k) false) := by
      simpa using hb
    rcases hcases with rfl | hmem | rfl
    · cases a <;> first | exact hfail.elim | exact id
    · exact hfree b hmem
    · exact id

/-- User 0 has sat down at the first counter. -/
def officeSeated : List (Act (Fin 2) (Fin 2)) :=
  officeNight ++ officeDay ++ [Act.user 0 (.takeSeat ⟨0, 0⟩ [0, 1] 0),
    .user 0 (.readOperator ⟨0, 0⟩ 0), .user 0 (.readStart ⟨0, 0⟩ 0 101)]

/-- Its request cannot be sent. -/
def officeFailure : List (Act (Fin 2) (Fin 2)) :=
  [Act.user 0 (.countFailed 0 (some 0) false)] ++ List.replicate 5 .section

def failedSend : Utente.Act := .sendRequestFails ⟨0, 0⟩ 0 101 1199

def atFailure : World (Fin 2) (Fin 2) :=
  (poste office).after atCounters [Act.user 0 (.takeSeat ⟨0, 0⟩ [0, 1] 0),
    .user 0 (.readOperator ⟨0, 0⟩ 0), .user 0 (.readStart ⟨0, 0⟩ 0 101)]

theorem officeSeated_after :
    (poste office).after (World.init office) officeSeated = atFailure := by
  rw [officeSeated, GuardedSystem.after_append, officeDay_after]
  rfl

theorem officeSeated_runs : (poste office).Runs (World.init office) officeSeated := by
  rw [officeSeated, GuardedSystem.runs_append, officeDay_after]
  exact ⟨officeDay_runs, by decide +kernel⟩

theorem failed_service_keeps_seat_office :
    (((poste office).after atFailure (.user 0 failedSend :: officeFailure ++
      [.user 0 (.return (some 0) false)])).sh.seats 0).userStatus = .occupied :=
  (failed_service_keeps_seat office atFailure 0 0 failedSend officeFailure rfl
    (by decide +kernel) (by simp [officeFailure])).2 (by decide +kernel)
    (by simp [FreesSeat, userSeatEvent, officeFailure])

theorem seat_lost_to_failure : ¬ ∀ (pre as : List (Act (Fin 2) (Fin 2))) (u : Fin 2) (k : ℕ)
    (a : Utente.Act), a.FailsAt k →
    (poste office).Runs (World.init office)
      (pre ++ (.user u a :: as ++ [.user u (.return (some k) false)])) →
    (∀ seat leaves, Act.user u (.return seat leaves) ∉ as) →
    GivesSeatBack office ((poste office).after (World.init office) pre) u k
      (.user u a :: as ++ [.user u (.return (some k) false)]) := by
  intro hgives
  have hrest : (poste office).Runs atFailure
      (.user 0 failedSend :: officeFailure ++ [.user 0 (.return (some 0) false)]) := by
    decide +kernel
  have hruns : (poste office).Runs (World.init office) (officeSeated ++
      (.user 0 failedSend :: officeFailure ++ [.user 0 (.return (some 0) false)])) := by
    rw [GuardedSystem.runs_append, officeSeated_after]
    exact ⟨officeSeated_runs, hrest⟩
  have hback := hgives officeSeated officeFailure 0 0 failedSend rfl hruns
    (by simp [officeFailure])
  rw [officeSeated_after] at hback
  have hseat : (((poste office).after atFailure (.user 0 failedSend :: officeFailure ++
      [.user 0 (.return (some 0) false)])).sh.seats 0).userStatus = .occupied := by
    decide +kernel
  rw [hback.1] at hseat
  cases hseat

end PosteItaliane
