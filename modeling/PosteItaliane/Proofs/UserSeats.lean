import PosteItaliane.Proofs.Office

/-!
# The seats of users

The seats users hold form a second registry over the same table, of which the table only
keeps whether somebody is registered. Users may leave `handle_service` without releasing,
so a seat can stay marked after its user has gone, but within a day no seat is shared and
no held seat is marked free.
-/

namespace PosteItaliane

open Framework

/-- Inside `handle_service`. -/
def Utente.Phase.inHandleService : Utente.Phase → Bool
  | .sendTicket _ | .awaitTicket _ | .findSeats _ | .takeSeat _ _ | .nap _ _ | .napOver _ _ => true
  | .tryFreed _ _ | .readOperator _ _ | .readStart _ _ _ | .sendRequest _ _ _ _ => true
  | .awaitDone _ _ _ | .readEnd _ _ _ _ | .countServed _ _ _ _ | .checkLate _ _ => true
  | .releaseSeat _ _ | .signalFreed _ _ => true
  | .countLate _ _ _ leaves | .countFailed _ _ leaves | .returning _ leaves => !leaves
  | _ => false

/-- `current_seat`, from `attempt_take_seat` until the locked section that frees it. -/
def Utente.Phase.heldSeat : Utente.Phase → Option ℕ
  | .readOperator _ k | .readStart _ k _ | .sendRequest _ k _ _ | .awaitDone _ k _ => some k
  | .readEnd _ k _ _ | .countServed _ k _ _ | .checkLate _ k | .releaseSeat _ k => some k
  | .countLate _ seat _ leaves | .countFailed _ seat leaves | .returning seat leaves =>
    if leaves then none else seat
  | _ => none

theorem Utente.Phase.heldSeat_eq_none {p : Utente.Phase} (h : p.inHandleService = false) :
    p.heldSeat = none := by
  cases p <;> simp_all [inHandleService, heldSeat]

variable {O U : Type} [Fintype O] [Fintype U] [DecidableEq O] [DecidableEq U]

def World.heldSeat (w : World O U) (u : U) : Option ℕ := (w.users u).phase.heldSeat

/-- What a step of the simulation is for the registry of users. -/
def userSeatEvent (site : Site O U) : Act O U → Option (Registry.Event U ℕ)
  | .user u (.takeSeat _ _ k) => some (.take u k)
  | .user u (.releaseSeat _ k) => some (.release u k)
  | .user u (.return (some _) false) => some (.leave u)
  | .director (.resetSeats _) => some (.clear fun k => decide (k < site.numSeats))
  | _ => none

theorem heldSeat_user (site : Site O U) (w : World O U) (u : U) (a : Utente.Act) :
    (w.next site (.user u a)).heldSeat = Function.update w.heldSeat u
      (Utente.next site u (w.users u) w.sh a).1.phase.heldSeat :=
  users_next (fun _ l => l.phase.heldSeat) site w u a

theorem heldSeat_user_keep (site : Site O U) (w : World O U) (u : U) (a : Utente.Act)
    (h : (Utente.next site u (w.users u) w.sh a).1.phase.heldSeat =
      (w.users u).phase.heldSeat) :
    (w.next site (.user u a)).heldSeat = w.heldSeat := by
  rw [heldSeat_user, h]
  exact Function.update_eq_self u w.heldSeat

/-- Only the steps above change which user holds what or whether the table marks it. -/
theorem userSeat_step (site : Site O U) (w : World O U) (a : Act O U) (ha : w.Enabled site a) :
    match userSeatEvent site a with
    | none => (w.next site a).heldSeat = w.heldSeat ∧
        ∀ k, ((w.next site a).sh.seats k).userStatus = (w.sh.seats k).userStatus
    | some (.take u k) => w.heldSeat u = none ∧ (w.sh.seats k).userStatus = .free ∧
        (w.next site a).heldSeat = Function.update w.heldSeat u (some k) ∧
        (w.next site a).sh.seats = takeUserSeat w.sh.seats k
    | some (.release u k) => w.heldSeat u = some k ∧
        (w.next site a).heldSeat = Function.update w.heldSeat u none ∧
        (w.next site a).sh.seats = releaseUserSeat w.sh.seats k
    | some (.leave u) => (w.next site a).heldSeat = Function.update w.heldSeat u none ∧
        (w.next site a).sh.seats = w.sh.seats
    | some (.clear p) => p = (fun k => decide (k < site.numSeats)) ∧
        (w.next site a).heldSeat = w.heldSeat ∧
        ∃ service, (w.next site a).sh.seats = resetSeats site.numSeats service w.sh.seats := by
  cases a with
  | user u a =>
    obtain ⟨-, he⟩ := ha
    cases a
    case takeSeat x valid k =>
      refine ⟨?_, (freeUserSeat_eq_some he.2).2, heldSeat_user site w u _, rfl⟩
      simp [World.heldSeat, he.1, Utente.Phase.heldSeat]
    case releaseSeat x k =>
      have he : (w.users u).phase = .releaseSeat x k := he
      refine ⟨?_, heldSeat_user site w u _, rfl⟩
      simp [World.heldSeat, he, Utente.Phase.heldSeat]
    case «return» seat leaves =>
      have he : (w.users u).phase = .returning seat leaves := he
      cases seat with
      | none =>
        refine ⟨heldSeat_user_keep site w u _ ?_, fun _ => rfl⟩
        cases leaves <;> simp [Utente.next, he, Utente.Phase.heldSeat]
      | some k =>
        cases leaves with
        | true =>
          refine ⟨heldSeat_user_keep site w u _ ?_, fun _ => rfl⟩
          simp [Utente.next, he, Utente.Phase.heldSeat]
        | false => exact ⟨heldSeat_user site w u _, rfl⟩
    case sleepOn walkIn => exact ⟨heldSeat_user_keep site w u _ rfl, fun _ => rfl⟩
    all_goals
      refine ⟨heldSeat_user_keep site w u _ ?_, fun _ => rfl⟩
      simp only [Utente.Enabled] at he
      simp only [Utente.next]
      grind [Utente.Phase.heldSeat]
  | oper o a =>
    refine ⟨rfl, fun j => ?_⟩
    cases a <;> first | rfl | exact takeSeat_userStatus _ j | exact releaseSeat_userStatus j
  | ticket a => cases a <;> exact ⟨rfl, fun _ => rfl⟩
  | director a =>
    have hheld : (w.next site (.director a)).heldSeat = w.heldSeat :=
      funext (users_director (fun _ p => p.heldSeat) (fun _ => rfl) site ha.2.2)
    cases a <;> try exact ⟨hheld, fun _ => rfl⟩
    case resetSeats service => exact ⟨rfl, hheld, service, rfl⟩
  | «section» => exact ⟨rfl, fun _ => rfl⟩

/-- The registry holds the users' seats, and the table marks every registered seat. -/
structure UserRegistryOf (w : World O U) (g : Registry U ℕ) : Prop where
  holds : g.holds = w.heldSeat
  marked : ∀ k, (g.name k).isSome → (w.sh.seats k).userStatus = .occupied

omit [Fintype O] [Fintype U] [DecidableEq O] [DecidableEq U] in
theorem UserRegistryOf.name_eq_none {w : World O U} {g : Registry U ℕ} (h : UserRegistryOf w g)
    {k : ℕ} (hk : (w.sh.seats k).userStatus = .free) : g.name k = none := by
  by_contra hname
  have hocc := h.marked k (Option.isSome_iff_ne_none.mpr hname)
  rw [hk] at hocc
  cases hocc

omit [Fintype O] [Fintype U] [DecidableEq O] in
theorem UserRegistryOf.take {w w' : World O U} {g : Registry U ℕ} (h : UserRegistryOf w g)
    {u : U} {k : ℕ} (hheld : w'.heldSeat = Function.update w.heldSeat u (some k))
    (htable : w'.sh.seats = takeUserSeat w.sh.seats k) :
    UserRegistryOf w' (Registry.system.next g (.take u k)) := by
  refine ⟨?_, ?_⟩
  · simp [Registry.system, h.holds, hheld]
  · intro j hj
    rw [htable, takeUserSeat_userStatus]
    by_cases hjk : j = k
    · rw [if_pos hjk]
    · rw [if_neg hjk]
      exact h.marked j (by simpa [Registry.system, hjk] using hj)

omit [Fintype O] [Fintype U] [DecidableEq O] in
theorem UserRegistryOf.release {w w' : World O U} {g : Registry U ℕ} (h : UserRegistryOf w g)
    {u : U} {k : ℕ} (hheld : w'.heldSeat = Function.update w.heldSeat u none)
    (htable : w'.sh.seats = releaseUserSeat w.sh.seats k) :
    UserRegistryOf w' (Registry.system.next g (.release u k)) := by
  refine ⟨?_, ?_⟩
  · simp [Registry.system, h.holds, hheld]
  · intro j hj
    have hjk : j ≠ k := by
      rintro rfl
      simp [Registry.system] at hj
    rw [htable, releaseUserSeat_userStatus, if_neg hjk]
    exact h.marked j (by simpa [Registry.system, hjk] using hj)

omit [Fintype O] [Fintype U] [DecidableEq O] in
theorem UserRegistryOf.leave {w w' : World O U} {g : Registry U ℕ} (h : UserRegistryOf w g)
    {u : U} (hheld : w'.heldSeat = Function.update w.heldSeat u none)
    (htable : w'.sh.seats = w.sh.seats) :
    UserRegistryOf w' (Registry.system.next g (.leave u)) := by
  refine ⟨?_, ?_⟩
  · simp [Registry.system, h.holds, hheld]
  · intro j hj
    rw [htable]
    exact h.marked j hj

omit [DecidableEq O] [DecidableEq U] in
theorem userSeatEvent_clear {site : Site O U} {a : Act O U} {p : ℕ → Bool}
    (h : userSeatEvent site a = some (.clear p)) : ¬ SameDay a := by
  cases a with
  | director a => cases a <;> simp_all [userSeatEvent, SameDay]
  | user u a =>
    cases a <;> try cases h
    case «return» seat leaves => cases seat <;> cases leaves <;> cases h
  | oper o a => cases h
  | ticket a => cases h
  | «section» => cases h

theorem poste_refines_userRegistry (site : Site O U) :
    ((poste site).restrict fun _ a => SameDay a).Refines
      (Registry.system.restrict Registry.Careful) UserRegistryOf (userSeatEvent site) := by
  intro w g a hR ha
  obtain ⟨ha, hday⟩ := ha
  have hstep := userSeat_step site w a ha
  cases hev : userSeatEvent site a with
  | none =>
    rw [hev] at hstep
    exact ⟨hR.holds.trans hstep.1.symm, fun k hk => (hstep.2 k).trans (hR.marked k hk)⟩
  | some e =>
    rw [hev] at hstep
    cases e with
    | take u k =>
      obtain ⟨hnone, hfree, hheld, htable⟩ := hstep
      exact ⟨⟨(congrFun hR.holds u).trans hnone, hR.name_eq_none hfree⟩, hR.take hheld htable⟩
    | release u k =>
      obtain ⟨hheld, hnext, htable⟩ := hstep
      exact ⟨⟨(congrFun hR.holds u).trans hheld, trivial⟩, hR.release hnext htable⟩
    | leave u => exact ⟨⟨trivial, trivial⟩, hR.leave hstep.1 hstep.2⟩
    | clear p => exact absurd hday (userSeatEvent_clear hev)

/-- No two users hold a seat, and every held seat is marked as occupied. -/
structure UserSeatsApart (w : World O U) : Prop where
  apart : ∀ u v k, w.heldSeat u = some k → w.heldSeat v = some k → u = v
  occupied : ∀ u k, w.heldSeat u = some k → (w.sh.seats k).userStatus = .occupied

/-- From any state with nobody inside `handle_service` until the next reset. -/
theorem user_seats_apart (site : Site O U) (w : World O U)
    (hout : ∀ u, (w.users u).phase.inHandleService = false) (as : List (Act O U))
    (h : (poste site).Runs w as) (hday : ∀ a ∈ as, SameDay a) :
    UserSeatsApart ((poste site).after w as) := by
  have hR : UserRegistryOf w ⟨w.heldSeat, fun _ => none⟩ := ⟨rfl, by simp⟩
  have hholders : Registry.HoldersNamed (⟨w.heldSeat, fun _ => none⟩ : Registry U ℕ) := by
    intro u k hu
    exact absurd ((Utente.Phase.heldSeat_eq_none (hout u)).symm.trans hu) (by simp)
  obtain ⟨hruns, hR'⟩ := (poste_refines_userRegistry site).run hR as
    ((poste site).runs_restrict_const.mpr ⟨h, hday⟩)
  have hnamed := Registry.holdersNamed hholders _ hruns
  rw [GuardedSystem.restrict_after] at hR'
  refine ⟨fun u v k hu hv => ?_, fun u k hu => ?_⟩
  · exact hnamed.unique (by rw [← hu]; exact congrFun hR'.holds u)
      (by rw [← hv]; exact congrFun hR'.holds v)
  · apply hR'.marked k
    have hname := hnamed u k (by rw [← hu]; exact congrFun hR'.holds u)
    exact Option.isSome_iff_exists.mpr ⟨u, hname⟩

/-- User 0 is served, and user 1 takes the seat it frees. -/
def visitThenNext : List (Act (Fin 2) (Fin 2)) :=
  officeRequest ++ (officeService ++ [.user 1 (.takeSeat ⟨0, 1⟩ [0, 1] 0)])

theorem visitThenNext_runs : (poste office).Runs (World.init office)
    (officeNight ++ (officeDay ++ visitThenNext)) := by
  rw [← List.append_assoc, GuardedSystem.runs_append, officeDay_after]
  exact ⟨officeDay_runs, by decide +kernel⟩

theorem visitThenNext_sameDay :
    ∀ a ∈ officeDay ++ visitThenNext, SameDay a := by
  intro a ha
  rcases List.mem_append.mp ha with ha | ha
  · exact officeDay_sameDay a ha
  · exact (by decide : ∀ a ∈ visitThenNext, SameDay a) a ha

theorem user_seats_apart_office : UserSeatsApart
    ((poste office).after ((poste office).after (World.init office) officeNight)
      (officeDay ++ visitThenNext)) :=
  user_seats_apart office _ (by decide) _
    ((GuardedSystem.runs_append _ _ _ _).mp visitThenNext_runs).2 visitThenNext_sameDay

/-- The index `attempt_take_seat` returned, as long as `handle_service` has not returned. -/
def Utente.Phase.takenSeat : Utente.Phase → Option ℕ
  | .signalFreed _ k => some k
  | p => p.heldSeat

/-- A user that has freed its seat is still inside `handle_service` when the next one sits
down. -/
theorem seat_taken_before_return : ¬ ∀ pre as : List (Act (Fin 2) (Fin 2)),
    (∀ u, (((poste office).after (World.init office) pre).users u).phase.inHandleService = false) →
    (poste office).Runs (World.init office) (pre ++ as) → (∀ a ∈ as, SameDay a) →
    ∀ u v k, (((poste office).after (World.init office) (pre ++ as)).users u).phase.takenSeat =
        some k →
      (((poste office).after (World.init office) (pre ++ as)).users v).phase.takenSeat = some k →
      u = v := by
  intro hapart
  have hsame := hapart officeNight _ (by decide) visitThenNext_runs visitThenNext_sameDay 0 1 0
  rw [← List.append_assoc, GuardedSystem.after_append, officeDay_after] at hsame
  exact absurd (hsame (by decide) (by decide)) (by decide)

end PosteItaliane
