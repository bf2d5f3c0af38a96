import PosteItaliane.Proofs.Serving

/-!
# One day at a small office

Two operators and two users of the same service, two seats and the default opening hours.
The users come just before the office closes, get their tickets and see both operators at
work; what happens then is up to the runs that continue from here. The second user has the
process id 30000. A second office has one counter and one user.
-/

namespace PosteItaliane

open Framework

def office : Site (Fin 2) (Fin 2) :=
  .numbered { defaultConfig with numOperators := 2, numUsers := 2, numWorkerSeats := 2 } 29999
    (fun _ => 0) (by decide) (by decide) (by decide)

/-- Midnight of the first day. -/
def officeNight : List (Act (Fin 2) (Fin 2)) :=
  [.oper 0 .waitDay, .oper 1 .waitDay, .user 0 .waitDay, .user 1 .waitDay] ++ midnight 1 ++
    [.director (.resetSeats fun _ => 0)]

/-- Everybody goes to work or plans one request, and waits for the opening. -/
def officeMorning : List (Act (Fin 2) (Fin 2)) :=
  wakeUps 4 ++ [.oper 0 .wake, .oper 1 .wake, .user 0 .wake, .user 1 .wake,
    .oper 0 .waitOpen, .oper 1 .waitOpen, .user 0 (.plan 50 0 [0] 714),
    .user 1 (.plan 50 0 [0] 714)]

/-- The operators sit down, and the users wait for 19:55. -/
def officeOpening : List (Act (Fin 2) (Fin 2)) :=
  opening 480 4 ++ [.oper 0 .enter, .oper 0 .canWork, .oper 0 (.takeFree 0),
    .oper 1 .enter, .oper 1 .canWork, .oper 1 (.takeFree 1),
    .user 0 (.enter 1195), .user 1 (.enter 1195)]

/-- Both users get a ticket and find both seats. -/
def officeTickets : List (Act (Fin 2) (Fin 2)) :=
  [.user 0 (.arrive 1195), .user 0 (.nextService 0 []), .user 0 (.sendTicket 0),
    .user 1 (.arrive 1195), .user 1 (.nextService 0 []), .user 1 (.sendTicket 0),
    .ticket (.receive ⟨1, .ticketRequest ⟨29999, 0⟩⟩), .ticket (.reply 29999), .ticket .count,
    .ticket (.receive ⟨1, .ticketRequest ⟨30000, 0⟩⟩), .ticket (.reply 30000), .ticket .count,
    .user 0 (.receiveTicket 0 ⟨29999, .ticketResponse ⟨100, 0⟩⟩), .user 0 (.findSeats ⟨0, 0⟩),
    .user 1 (.receiveTicket 0 ⟨30000, .ticketResponse ⟨100, 1⟩⟩), .user 1 (.findSeats ⟨0, 1⟩)]

/-- The day until 19:59. -/
def officeWait : List (Act (Fin 2) (Fin 2)) :=
  officeMorning ++ (quietMinutes 1 479 ++ (officeOpening ++ quietMinutes 481 718))

def officeDay : List (Act (Fin 2) (Fin 2)) := officeWait ++ officeTickets

def officeAtOpening : World (Fin 2) (Fin 2) :=
  ((poste office).after (World.init office) (officeNight ++ officeMorning)).atMinute 480

def officeBeforeClosing : World (Fin 2) (Fin 2) :=
  ((poste office).after officeAtOpening officeOpening).atMinute 1199

/-- Both operators at their seats, both users about to take one. -/
def atCounters : World (Fin 2) (Fin 2) := (poste office).after officeBeforeClosing officeTickets

theorem office_quiet {m : ℤ} (h0 : 0 < m) (h1440 : m < 1440) (h480 : m ≠ 480)
    (h1200 : m ≠ 1200) : Quiet office m :=
  quiet_default rfl rfl h0 h1440 h480 h1200

theorem office_quiet_morning :
    ∀ i : ℤ, 1 ≤ i → i ≤ 1 + (478 : ℕ) → Quiet office i :=
  fun i h1 h2 => office_quiet (by omega) (by omega) (by omega) (by omega)

theorem office_quiet_afternoon :
    ∀ i : ℤ, 481 ≤ i → i ≤ 481 + (717 : ℕ) → Quiet office i :=
  fun i h1 h2 => office_quiet (by omega) (by omega) (by omega) (by omega)

theorem office_idle_morning : Idle office
    ((poste office).after (World.init office) (officeNight ++ officeMorning)) 1 :=
  ⟨by decide, by decide, by decide, by decide⟩

theorem office_idle_afternoon :
    Idle office ((poste office).after officeAtOpening officeOpening) 481 :=
  ⟨by decide, by decide, by decide, by decide⟩

theorem officeWait_after :
    (poste office).after (World.init office) (officeNight ++ officeWait) = officeBeforeClosing := by
  rw [officeWait, ← List.append_assoc, GuardedSystem.after_append]
  rw [after_quiet office_idle_morning 478 office_quiet_morning, GuardedSystem.after_append]
  exact (quiet_minutes office_idle_afternoon 717 office_quiet_afternoon).2

theorem officeDay_after :
    (poste office).after (World.init office) (officeNight ++ officeDay) = atCounters := by
  rw [officeDay, ← List.append_assoc, GuardedSystem.after_append, officeWait_after]
  rfl

/-- The day is a run also of a system with conditions that its parts meet. -/
theorem officeWait_restrict {C : World (Fin 2) (Fin 2) → Act (Fin 2) (Fin 2) → Prop}
    (hquiet : ∀ m, ∀ a ∈ quietMinute m, ∀ w, C w a)
    (hmorning : ((poste office).restrict C).Runs (World.init office)
      (officeNight ++ officeMorning))
    (hopening : ((poste office).restrict C).Runs officeAtOpening officeOpening) :
    ((poste office).restrict C).Runs (World.init office) (officeNight ++ officeWait) := by
  rw [officeWait, ← List.append_assoc, GuardedSystem.runs_append, GuardedSystem.restrict_after]
  refine ⟨hmorning, ?_⟩
  rw [runs_quiet_restrict hquiet office_idle_morning 478 office_quiet_morning,
    GuardedSystem.runs_append]
  refine ⟨hopening, ?_⟩
  exact (quiet_minutes office_idle_afternoon 717 office_quiet_afternoon).1.restrict_of_forall _
    (forall_mem_quietMinutes hquiet 481 718)

theorem officeDay_restrict {C : World (Fin 2) (Fin 2) → Act (Fin 2) (Fin 2) → Prop}
    (hquiet : ∀ m, ∀ a ∈ quietMinute m, ∀ w, C w a)
    (hmorning : ((poste office).restrict C).Runs (World.init office)
      (officeNight ++ officeMorning))
    (hopening : ((poste office).restrict C).Runs officeAtOpening officeOpening)
    (htickets : ((poste office).restrict C).Runs officeBeforeClosing officeTickets) :
    ((poste office).restrict C).Runs (World.init office) (officeNight ++ officeDay) := by
  rw [officeDay, ← List.append_assoc, GuardedSystem.runs_append, GuardedSystem.restrict_after,
    officeWait_after]
  exact ⟨officeWait_restrict hquiet hmorning hopening, htickets⟩

theorem officeWait_runs : (poste office).Runs (World.init office) (officeNight ++ officeWait) :=
  GuardedSystem.Runs.of_restrict _ (officeWait_restrict (C := fun _ _ => True)
    (fun _ _ _ _ => trivial) (by decide) (by decide))

theorem officeDay_runs : (poste office).Runs (World.init office) (officeNight ++ officeDay) := by
  rw [officeDay, ← List.append_assoc, GuardedSystem.runs_append, officeWait_after]
  exact ⟨officeWait_runs, by decide⟩

theorem forall_mem_officeWait {P : Act (Fin 2) (Fin 2) → Prop}
    (hquiet : ∀ m, ∀ a ∈ quietMinute m, P a)
    (hparts : ∀ a ∈ officeMorning ++ officeOpening, P a) : ∀ a ∈ officeWait, P a := by
  intro a ha
  simp only [officeWait, List.mem_append] at ha
  rcases ha with ha | ha | ha | ha
  · exact hparts a (List.mem_append_left _ ha)
  · exact forall_mem_quietMinutes hquiet 1 479 a ha
  · exact hparts a (List.mem_append_right _ ha)
  · exact forall_mem_quietMinutes hquiet 481 718 a ha

theorem officeDay_sameDay : ∀ a ∈ officeDay, SameDay a := by
  intro a ha
  rcases List.mem_append.mp ha with ha | ha
  · exact forall_mem_officeWait (by simp [quietMinute, SameDay]) (by decide) a ha
  · exact (by decide : ∀ a ∈ officeTickets, SameDay a) a ha

/-- User 0 sits down at seat 0 and sends its request. -/
def officeRequest : List (Act (Fin 2) (Fin 2)) :=
  [.user 0 (.takeSeat ⟨0, 0⟩ [0, 1] 0), .user 0 (.readOperator ⟨0, 0⟩ 0),
    .user 0 (.readStart ⟨0, 0⟩ 0 101), .user 0 (.sendRequest ⟨0, 0⟩ 0 101 1199)]

/-- It is served and frees the seat. -/
def officeService : List (Act (Fin 2) (Fin 2)) :=
  let q : ServiceRequest := ⟨29999, 0⟩
  let d : ServiceDone := ⟨101, 0, 0, 5⟩
  [.oper 0 (.stillOpen 0), .oper 0 (.receive 0 ⟨30101, .serviceRequest q⟩),
    .oper 0 (.countRequest 0 q)] ++ List.replicate 5 .section ++
  [.oper 0 (.serve 0 q 0), .oper 0 (.reply 0 q 5),
    .user 0 (.receiveDone ⟨0, 0⟩ 0 1199 ⟨29999, .serviceDone d⟩ d),
    .user 0 (.readEnd ⟨0, 0⟩ 0 1199 d), .user 0 (.countServed ⟨0, 0⟩ 0 0 d)] ++
  List.replicate 13 .section ++
  [.user 0 (.onTime ⟨0, 0⟩ 0), .user 0 (.releaseSeat ⟨0, 0⟩ 0)]

/-- The office closes and operator 1 goes home. User 1 sends its request to operator 0, and
user 0 takes the seat that operator 1 has left. -/
def officeClosing : List (Act (Fin 2) (Fin 2)) :=
  quietMinute 1199 ++ closing 1200 2 ++
    [.oper 1 (.closed 1), .oper 1 (.release 1 false), .oper 1 (.signal false),
      .user 1 (.takeSeat ⟨0, 1⟩ [0, 1] 0), .user 1 (.readOperator ⟨0, 1⟩ 0),
      .user 1 (.readStart ⟨0, 1⟩ 0 101), .user 1 (.sendRequest ⟨0, 1⟩ 0 101 1201),
      .user 0 (.takeSeat ⟨0, 0⟩ [0, 1] 1), .user 0 (.readOperator ⟨0, 0⟩ 1),
      .user 0 (.readStart ⟨0, 0⟩ 1 0), .user 0 (.sendRequest ⟨0, 0⟩ 1 0 1201)]

def oneCounter : Site (Fin 1) (Fin 1) :=
  .numbered { defaultConfig with numOperators := 1, numUsers := 1, numWorkerSeats := 1 } 1000
    (fun _ => 0) (by decide) (by decide) (by decide)

-- Named once for the other sites with one operator and one user.
theorem pids_before_user : 100 + 1 < 1000 := by decide

def counterMorning : List (Act (Fin 1) (Fin 1)) :=
  [.oper 0 .waitDay, .user 0 .waitDay] ++ midnight 1 ++ [.director (.resetSeats fun _ => 0)] ++
    wakeUps 2 ++ [.oper 0 .wake, .user 0 .wake, .oper 0 .waitOpen, .user 0 (.plan 50 0 [0] 0)]

end PosteItaliane
