import PosteItaliane.Framework.Broadcast
import PosteItaliane.Proofs.Diary
import PosteItaliane.Proofs.Steps

/-!
# One working day a day

The director posts `day_update_event` once for every process, and a process that comes back
early can take a token that was meant for a slower one. It cannot if it finds no token when
it comes back and the director has finished posting.
-/

namespace PosteItaliane

open Framework

/-- Blocked in `sem_wait(day_update_event)`. -/
def Operatore.Phase.awaitsDay : Operatore.Phase → Bool
  | .awaitDay => true
  | _ => false

/-- Blocked in `sem_wait(day_update_event)`. -/
def Utente.Phase.awaitsDay : Utente.Phase → Bool
  | .awaitDay => true
  | _ => false

def Direttore.Phase.inStartNewDay : Direttore.Phase → Bool
  | .showStats | .resetStats | .resetSeats | .waking _ => true
  | _ => false

variable {O U : Type} [Fintype O] [Fintype U]

/-- A process that has had the current day finds no token and no director posting any. -/
def WaitsPunctually (s : World O U × Diary O U) (p : Proc O U) : Prop :=
  s.2.lastDay p = s.2.day →
    s.1.sh.dayUpdateEvent = 0 ∧ s.1.dir.phase.inStartNewDay = false

def Punctual (s : World O U × Diary O U) : Act O U → Prop
  | .oper o .waitDay => WaitsPunctually s (.operatore o)
  | .user u .waitDay => WaitsPunctually s (.utente u)
  | _ => True

instance (s : World O U × Diary O U) (p : Proc O U) : Decidable (WaitsPunctually s p) :=
  inferInstanceAs (Decidable (_ → _))

instance (s : World O U × Diary O U) (a : Act O U) : Decidable (Punctual s a) := by
  rcases a with ⟨o, b⟩ | ⟨u, b⟩ | _
  case oper => rcases b with _ | _ <;> (dsimp only [Punctual]; infer_instance)
  case user => rcases b with _ | _ <;> (dsimp only [Punctual]; infer_instance)
  all_goals exact isTrue trivial

/-- No process has been woken more often than a day has begun since it was created, and none
twice on one day. -/
def OneDayEach (D : Diary O U) : Prop :=
  ∀ p, (D.lived p).length ≤ D.day - D.createdOn p ∧ (D.lived p).Nodup

/-- The part of the state that decides who is woken. -/
def roundsOf (s : World O U × Diary O U) : Rounds (Proc O U) where
  round := s.2.day
  born := s.2.createdOn
  lived := s.2.lived
  waiting := s.1.marks Operatore.Phase.awaitsDay Utente.Phase.awaitsDay
  tokens := s.1.sh.dayUpdateEvent
  posting := s.1.dir.phase.inStartNewDay

def roundEvent : Act O U → Option (Rounds.Event (Proc O U))
  | .oper o .waitDay => some (.wait (.operatore o))
  | .oper o .wake => some (.wake (.operatore o))
  | .user u .waitDay => some (.wait (.utente u))
  | .user u .wake => some (.wake (.utente u))
  | .director .startNewDay => some .start
  | .director (.postDay _) => some .post
  | .director .dayStarted => some .finish
  | .director (.startUser u _) => some (.create (.utente u))
  | _ => none

/-- The rounds follow the state, and users that do not exist have never been woken. -/
def RoundsOf (s : World O U × Diary O U) (g : Rounds (Proc O U)) : Prop :=
  roundsOf s = g ∧ ∀ u, (s.1.users u).phase = .notStarted → s.2.lived (.utente u) = []

omit [Fintype O] [Fintype U] in
theorem roundsOf_keep {w w' : World O U} {D : Diary O U}
    (hmarks : w'.marks Operatore.Phase.awaitsDay Utente.Phase.awaitsDay =
      w.marks Operatore.Phase.awaitsDay Utente.Phase.awaitsDay)
    (htokens : w'.sh.dayUpdateEvent = w.sh.dayUpdateEvent)
    (hposting : w'.dir.phase.inStartNewDay = w.dir.phase.inStartNewDay) :
    roundsOf (w', D) = roundsOf (w, D) := by
  simp [roundsOf, hmarks, htokens, hposting]

variable [DecidableEq O] [DecidableEq U]

/-- A step does to the rounds what its event says. -/
def FollowsRounds (site : Site O U) (s : World O U × Diary O U) (a : Act O U) : Prop :=
  match roundEvent a with
  | none => roundsOf ((posteDiary site).next s a) = roundsOf s
  | some e => Rounds.system.Enabled (roundsOf s) e ∧
      roundsOf ((posteDiary site).next s a) = Rounds.system.next (roundsOf s) e

theorem followsRounds_oper (site : Site O U) {w : World O U} {D : Diary O U} {o : O}
    {b : Operatore.Act} (ha : w.Enabled site (.oper o b)) :
    FollowsRounds site (w, D) (.oper o b) := by
  obtain ⟨-, he⟩ := ha
  cases b
  case waitDay =>
    refine ⟨trivial, ?_⟩
    simp only [roundsOf, posteDiary, GuardedSystem.withHistory, poste, marks_oper]
    rfl
  case wake =>
    have hphase : (w.opers o).phase = .awaitDay := he.1
    refine ⟨⟨?_, he.2⟩, ?_⟩
    · simp [roundsOf, World.marks, hphase, Operatore.Phase.awaitsDay]
    · simp only [roundsOf, posteDiary, GuardedSystem.withHistory, poste, marks_oper]
      rfl
  all_goals
    refine roundsOf_keep (marks_oper_keep site ?_) rfl rfl
    simp only [Operatore.Enabled] at he
    simp only [Operatore.next]
    grind [Operatore.Phase.awaitsDay]

theorem followsRounds_user (site : Site O U) {w : World O U} {D : Diary O U} {u : U}
    {b : Utente.Act} (ha : w.Enabled site (.user u b)) :
    FollowsRounds site (w, D) (.user u b) := by
  obtain ⟨-, he⟩ := ha
  cases b
  case waitDay =>
    refine ⟨trivial, ?_⟩
    simp only [roundsOf, posteDiary, GuardedSystem.withHistory, poste, marks_user]
    rfl
  case wake =>
    have hphase : (w.users u).phase = .awaitDay := he.1
    refine ⟨⟨?_, he.2⟩, ?_⟩
    · simp [roundsOf, World.marks, hphase, Utente.Phase.awaitsDay]
    · simp only [roundsOf, posteDiary, GuardedSystem.withHistory, poste, marks_user]
      rfl
  case sleepOn t => exact roundsOf_keep (marks_user_keep site rfl) rfl rfl
  all_goals
    refine roundsOf_keep (marks_user_keep site ?_) rfl rfl
    simp only [Utente.Enabled] at he
    simp only [Utente.next]
    grind [Utente.Phase.awaitsDay]

theorem followsRounds_director (site : Site O U) {w : World O U} {D : Diary O U}
    {b : Direttore.Act U}
    (hnew : ∀ u, (w.users u).phase = .notStarted → D.lived (.utente u) = [])
    (ha : w.Enabled site (.director b)) : FollowsRounds site (w, D) (.director b) := by
  obtain ⟨-, he, hstart⟩ := ha
  have hmarks : (w.next site (.director b)).marks Operatore.Phase.awaitsDay
      Utente.Phase.awaitsDay = w.marks Operatore.Phase.awaitsDay Utente.Phase.awaitsDay :=
    marks_director site rfl hstart
  cases b
  case startNewDay =>
    refine ⟨trivial, ?_⟩
    simp only [roundsOf, posteDiary, GuardedSystem.withHistory, poste, hmarks]
    rfl
  case postDay n =>
    have hphase : w.dir.phase = .waking (n + 1) := he
    refine ⟨?_, ?_⟩
    · simp [Rounds.system, roundsOf, hphase, Direttore.Phase.inStartNewDay]
    · simp only [roundsOf, posteDiary, GuardedSystem.withHistory, poste, hmarks]
      simp [Rounds.system, World.next, Direttore.next, Diary.record, hphase,
        Direttore.Phase.inStartNewDay]
  case dayStarted =>
    refine ⟨trivial, ?_⟩
    simp only [roundsOf, posteDiary, GuardedSystem.withHistory, poste, hmarks]
    rfl
  case startUser u n =>
    have hphase : (w.users u).phase = .notStarted := hstart
    have hdir : w.dir.phase = .starting (n + 1) := he
    refine ⟨⟨?_, hnew u hphase⟩, ?_⟩
    · simp [roundsOf, World.marks, hphase, Utente.Phase.awaitsDay]
    · simp only [roundsOf, posteDiary, GuardedSystem.withHistory, poste, hmarks]
      simp [Rounds.system, World.next, Direttore.next, Diary.record, hdir,
        Direttore.Phase.inStartNewDay]
  all_goals
    apply roundsOf_keep hmarks rfl
    simp only [Direttore.Enabled] at he
    simp only [World.next, Direttore.next]
    grind [Direttore.Phase.inStartNewDay]

theorem lived_step (site : Site O U) (s : World O U × Diary O U) (a : Act O U)
    (ha : s.1.Enabled site a)
    (hnew : ∀ u, (s.1.users u).phase = .notStarted → s.2.lived (.utente u) = []) (u : U)
    (hu : (((posteDiary site).next s a).1.users u).phase = .notStarted) :
    ((posteDiary site).next s a).2.lived (.utente u) = [] := by
  obtain ⟨w, D⟩ := s
  have hlived (h : a ≠ .user u .wake) :
      (D.record a).lived (.utente u) = D.lived (.utente u) := by
    cases a with
    | oper o b => cases b <;> simp [Diary.record, Diary.wake]
    | user v b =>
      cases b <;> try rfl
      case wake =>
        have hv : u ≠ v := by
          rintro rfl
          exact h rfl
        simp [Diary.record, Diary.wake, hv]
    | ticket b => rfl
    | director b => cases b <;> rfl
    | «section» => rfl
  rcases user_step site ha u with hsame | ⟨b, rfl, he, hnext⟩ | ⟨n, rfl, hphase, hnext⟩
  · have hphase : (w.users u).phase = .notStarted := by
      rw [← hsame]
      exact hu
    refine (hlived ?_).trans (hnew u hphase)
    rintro rfl
    have hawait : (w.users u).phase = .awaitDay := ha.2.1
    exact absurd (hawait.symm.trans hphase) (by simp)
  · have hphase : (Utente.next site u (w.users u) w.sh b).1.phase = .notStarted := by
      rw [← hnext]
      exact hu
    cases b <;> simp only [Utente.Enabled] at he <;> simp only [Utente.next] at hphase <;> grind
  · have hboot : (Utente.Phase.boot : Utente.Phase) = .notStarted := by
      have hnext := congrArg Utente.Local.phase hnext
      exact hnext.symm.trans hu
    cases hboot

theorem posteDiary_refines_rounds (site : Site O U) :
    (posteDiary site).Refines Rounds.system RoundsOf roundEvent := by
  rintro ⟨w, D⟩ g a ⟨rfl, hnew⟩ ha
  have hfollows : FollowsRounds site (w, D) a := by
    cases a with
    | oper o b => exact followsRounds_oper site ha
    | user u b => exact followsRounds_user site ha
    | ticket b => cases b <;> exact roundsOf_keep rfl rfl rfl
    | director b => exact followsRounds_director site hnew ha
    | «section» => exact roundsOf_keep rfl rfl rfl
  have hlived := lived_step site (w, D) a ha hnew
  rw [FollowsRounds] at hfollows
  cases hev : roundEvent a with
  | none =>
    rw [hev] at hfollows
    exact ⟨hfollows, hlived⟩
  | some e =>
    rw [hev] at hfollows
    exact ⟨hfollows.1, hfollows.2, hlived⟩

omit [Fintype O] [Fintype U] [DecidableEq O] [DecidableEq U] in
/-- Waiting punctually is the condition of the rounds. -/
theorem rounds_punctual {s : World O U × Diary O U} {g : Rounds (Proc O U)}
    {a : Act O U} {e : Rounds.Event (Proc O U)} (hR : RoundsOf s g) (ha : Punctual s a)
    (he : roundEvent a = some e) : Rounds.Punctual g e := by
  obtain ⟨rfl, -⟩ := hR
  cases a with
  | oper o b => cases b <;> cases he <;> exact ha
  | user u b => cases b <;> cases he <;> exact ha
  | director b => cases b <;> cases he <;> trivial
  | ticket b => cases he
  | «section» => cases he

omit [DecidableEq O] in
theorem roundsOf_init (site : Site O U) :
    (roundsOf (World.init site, (Diary.start : Diary O U))).InStep := by
  refine ⟨fun p => Nat.le_refl _, fun p r hr => ?_, fun p => List.nodup_nil, fun p => Nat.le_refl _,
    fun p hp => ?_⟩
  · cases hr
  · exact Or.inr ⟨rfl, rfl⟩

/-- As long as every process waits punctually, nobody lives a day twice. -/
theorem one_day_each (site : Site O U) (as : List (Act O U))
    (h : ((posteDiary site).restrict Punctual).Runs (World.init site, Diary.start) as) :
    OneDayEach (Diary.of as) := by
  have href := (posteDiary_refines_rounds site).restrict (C := Punctual)
    (D := Rounds.Punctual) (fun s g a e hR _ ha he => rounds_punctual hR ha he)
  have hinit : RoundsOf (World.init site, (Diary.start : Diary O U))
      (roundsOf (World.init site, Diary.start)) := ⟨rfl, fun u _ => rfl⟩
  obtain ⟨hruns, hR⟩ := href.run hinit as h
  have hstep := Rounds.inStep_run (roundsOf_init site) _ hruns
  have hrounds := hR.1
  rw [GuardedSystem.restrict_after, posteDiary_after] at hrounds
  rw [← GuardedSystem.restrict_after (C := Rounds.Punctual), ← hrounds] at hstep
  intro p
  refine ⟨?_, hstep.nodup p⟩
  have hbound := (hstep.bound p).trans (hstep.last_le p)
  exact Nat.le_sub_of_add_le hbound

/-- Both processes are woken, and the user stays at home and waits for the next day. -/
def counterHome : List (Act (Fin 1) (Fin 1)) :=
  [.oper 0 .waitDay, .user 0 .waitDay] ++ midnight 1 ++ [.director (.resetSeats fun _ => 0)] ++
    wakeUps 2 ++ [.oper 0 .wake, .user 0 .wake, .user 0 (.stayHome 0), .user 0 .waitDay]

theorem one_day_each_counter : OneDayEach (Diary.of counterHome) :=
  one_day_each oneCounter counterHome (by decide)

/-- The user stays at home and is back before the operator has been woken. -/
def counterReturn : List (Act (Fin 1) (Fin 1)) :=
  [.oper 0 .waitDay, .user 0 .waitDay] ++ midnight 1 ++ [.director (.resetSeats fun _ => 0)] ++
    wakeUps 2 ++ [.user 0 .wake, .user 0 (.stayHome 0), .user 0 .waitDay, .user 0 .wake]

/-- It takes the operator's wake-up. -/
theorem day_lived_twice : ¬ ∀ as : List (Act (Fin 1) (Fin 1)),
    (poste oneCounter).Runs (World.init oneCounter) as →
    ∀ p, ((Diary.of as).lived p).length ≤ (Diary.of as).day - (Diary.of as).createdOn p := by
  intro hatMostOnce
  have hbound := hatMostOnce counterReturn (by decide) (.utente 0)
  exact absurd hbound (by decide)

end PosteItaliane
