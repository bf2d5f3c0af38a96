import PosteItaliane.Proofs.Gates
import PosteItaliane.Proofs.Headcounts

/-!
# Nobody is kept in

`close_poste_event` is posted once a day for every operator. An operator goes home by taking
a token, early or because there is nothing for it to do, so that tokens are left over; and it
can be woken twice on a day and take two. From the closing to midnight there is a token for
every operator that is at work or on its way, unless some operator has lived a day twice.
-/

namespace PosteItaliane

open Framework

/-- Woken, and neither at home again nor past `did_poste_close`. -/
def Operatore.Phase.beforeClosing : Operatore.Phase → Bool
  | .boot | .home | .awaitDay | .release _ _ | .signal _ | .countPause | .countActive => false
  | _ => true

/-- The closing tokens that the director has still to post. -/
def Direttore.Phase.closingsLeft : Direttore.Phase → ℕ
  | .closing n => n
  | _ => 0

instance (t : Tick) (config : PosteConfig) (m : ℤ) (phase : Direttore.Phase) :
    Decidable (t.Due config m phase) := by
  cases phase <;> cases t <;> (dsimp only [Tick.Due]; infer_instance)

variable {O U : Type} [Fintype O] [Fintype U]

/-- The operators that have still to find the office closed. -/
def World.toGoHome (w : World O U) : ℕ :=
  w.crowd Operatore.Phase.beforeClosing fun _ => false

/-- How often the operators have been woken. -/
def Diary.workingDays (D : Diary O U) : ℕ := ∑ o, (D.lived (.operatore o)).length

/-- Every closing gives each operator a token, for one of the times it was woken. -/
structure WayOut (site : Site O U) (s : World O U × Diary O U) : Prop where
  clock : s.1.dir.phase.OnClock s.2.day s.1.dir.minutesElapsed
  closings : s.2.day ≤ s.2.closed.length +
    if Tick.closing.Due site.config s.1.dir.minutesElapsed s.1.dir.phase then 0 else 1
  tokens : s.2.closed.length * Fintype.card O + s.1.toGoHome ≤
    s.1.sh.closePosteEvent + s.1.dir.phase.closingsLeft + s.2.workingDays

variable [DecidableEq O] [DecidableEq U]

omit [Fintype U] in
theorem workingDays_wake (D : Diary O U) (o : O) :
    (D.wake (.operatore o)).workingDays = D.workingDays + 1 := by
  have hfun : (fun q => (D.wake (.operatore o)).lived (.operatore q)) =
      Function.update (fun q => D.lived (.operatore q)) o (D.day :: D.lived (.operatore o)) := by
    funext q
    by_cases hq : q = o
    · subst q
      simp [Diary.wake]
    · simp [Diary.wake, hq]
  have hsum := Mailbox.sum_update List.length (fun q => D.lived (.operatore q)) o
    (D.day :: D.lived (.operatore o))
  rw [← hfun] at hsum
  simp only [List.length_cons] at hsum
  unfold Diary.workingDays
  omega

omit [Fintype U] in
theorem workingDays_user (D : Diary O U) (u : U) :
    (D.wake (.utente u)).workingDays = D.workingDays := by
  simp [Diary.workingDays, Diary.wake]

/-- The closing of a day comes before the next one begins. -/
theorem closings_step (site : Site O U) (hactive : Tick.closing.Active site.config)
    {l : Direttore.Local} {sh : Shared O U} {D : Diary O U} {b : Direttore.Act U}
    (hclock : l.phase.OnClock D.day l.minutesElapsed)
    (h : D.day ≤ D.closed.length +
      if Tick.closing.Due site.config l.minutesElapsed l.phase then 0 else 1)
    (hb : Direttore.Enabled site l sh b) :
    (D.record (.director b)).day ≤ (D.record (.director b)).closed.length +
      if Tick.closing.Due site.config (Direttore.next site l sh b).1.minutesElapsed
        (Direttore.next site l sh b).1.phase then 0 else 1 := by
  obtain ⟨hpos, h24⟩ := hactive
  obtain ⟨phase, m, days, users, printed⟩ := l
  cases b <;> simp only [Direttore.Enabled] at hb
  all_goals
    simp only [Direttore.next, Diary.record]
    grind [Tick.Due, Tick.minute, Direttore.Phase.OnClock]

theorem WayOut.oper {site : Site O U} {w : World O U} {D : Diary O U} (h : WayOut site (w, D))
    {o : O} {b : Operatore.Act} (hb : Operatore.Enabled site o (w.opers o) w.sh b) :
    WayOut site ((posteDiary site).next (w, D) (.oper o b)) := by
  obtain ⟨hclock, hclosings, htokens⟩ := h
  have hcount := crowd_oper Operatore.Phase.beforeClosing (fun _ => false) site w o b
  have hwake := workingDays_wake D o
  simp only [World.toGoHome] at htokens
  cases b <;> refine ⟨hclock, hclosings, ?_⟩
  all_goals
    simp only [Operatore.Enabled] at hb
    simp only [posteDiary, GuardedSystem.withHistory, poste, World.toGoHome, Diary.record]
    simp only [World.next, Operatore.next, hb] at hcount ⊢
    simp only [Operatore.Phase.beforeClosing] at hcount
    grind [Diary.wake]

theorem WayOut.user {site : Site O U} {w : World O U} {D : Diary O U} (h : WayOut site (w, D))
    {u : U} {b : Utente.Act} : WayOut site ((posteDiary site).next (w, D) (.user u b)) := by
  have hcrowd : (w.next site (.user u b)).toGoHome = w.toGoHome :=
    crowd_user Operatore.Phase.beforeClosing (fun _ => false) site w u b
  have hdays := workingDays_user D u
  obtain ⟨hclock, hclosings, htokens⟩ := h
  cases b
  case wake =>
    refine ⟨hclock, hclosings, ?_⟩
    show D.closed.length * _ + (w.next site (.user u .wake)).toGoHome ≤
      w.sh.closePosteEvent + _ + (D.wake (.utente u)).workingDays
    rw [hcrowd, hdays]
    exact htokens
  all_goals exact ⟨hclock, hclosings, hcrowd ▸ htokens⟩

theorem WayOut.director {site : Site O U} (hactive : Tick.closing.Active site.config)
    {w : World O U} {D : Diary O U} (h : WayOut site (w, D)) {b : Direttore.Act U}
    (ha : w.Enabled site (.director b)) :
    WayOut site ((posteDiary site).next (w, D) (.director b)) := by
  obtain ⟨-, hb, hstart⟩ := ha
  obtain ⟨hclock, hclosings, htokens⟩ := h
  refine ⟨clock_step site hclock hb, closings_step site hactive hclock hclosings hb, ?_⟩
  have hcrowd : (w.next site (.director b)).toGoHome = w.toGoHome :=
    crowd_director site rfl hstart
  have hopers := site.operators_started
  show (D.record (.director b)).closed.length * _ + (w.next site (.director b)).toGoHome ≤ _
  rw [hcrowd]
  cases b <;> simp only [Direttore.Enabled] at hb
  case closePoste =>
    obtain ⟨hphase, -⟩ := hb
    have hcard : site.config.numOperators.toNat = Fintype.card O := by omega
    simp only [posteDiary, GuardedSystem.withHistory, poste, World.next, Direttore.next,
      Diary.record, Direttore.Phase.closingsLeft, List.length_cons, hcard]
    simp only [hphase, Direttore.Phase.closingsLeft] at htokens
    have hdays : ({ D with closed := D.day :: D.closed } : Diary O U).workingDays =
      D.workingDays := rfl
    rw [hdays, Nat.succ_mul]
    omega
  all_goals
    simp only [posteDiary, GuardedSystem.withHistory, poste, World.next, Direttore.next,
      Diary.record]
    grind [Direttore.Phase.closingsLeft, Diary.workingDays]

omit [DecidableEq O] in
theorem wayOut_init (site : Site O U) :
    WayOut site (World.init site, (Diary.start : Diary O U)) := by
  refine ⟨Or.inl ⟨rfl, rfl⟩, Nat.zero_le _, ?_⟩
  have hnobody : (World.init site).toGoHome = 0 := by
    have hmarks (p : Proc O U) : (World.init site).marks Operatore.Phase.beforeClosing
        (fun _ => false) p = false := by
      cases p <;> rfl
    simp [World.toGoHome, World.crowd, hmarks, overProcs]
  rw [hnobody]
  simp [Diary.start]

theorem wayOut_run (site : Site O U) (hactive : Tick.closing.Active site.config)
    (as : List (Act O U)) (h : (posteDiary site).Runs (World.init site, Diary.start) as) :
    WayOut site ((posteDiary site).after (World.init site, Diary.start) as) := by
  refine (posteDiary site).invariant (P := WayOut site) (wayOut_init site) ?_ as h
  rintro ⟨w, D⟩ a hs ha
  cases a with
  | oper o b => exact hs.oper ha.2
  | user u b => exact hs.user
  | ticket b => cases b <;> exact ⟨hs.clock, hs.closings, hs.tokens⟩
  | director b => exact hs.director hactive ha
  | «section» => exact ⟨hs.clock, hs.closings, hs.tokens⟩

/-- From the closing to midnight there is a closing token for every operator that has still to
find the office closed, if no operator has been woken on more days than there have been. -/
theorem nobody_kept_in (site : Site O U) (hactive : Tick.closing.Active site.config)
    (as : List (Act O U)) (h : (poste site).Runs (World.init site) as)
    (hclosed : Tick.closing.Due site.config
      ((poste site).after (World.init site) as).dir.minutesElapsed
      ((poste site).after (World.init site) as).dir.phase)
    (hposted : ∀ n, ((poste site).after (World.init site) as).dir.phase ≠ .closing (n + 1))
    (honce : ∀ o, ((Diary.of as).lived (.operatore o)).length ≤ (Diary.of as).day) :
    ((poste site).after (World.init site) as).toGoHome ≤
      ((poste site).after (World.init site) as).sh.closePosteEvent := by
  have hruns := ((poste site).runs_withHistory Diary.record (World.init site) Diary.start as).mpr h
  have hway := wayOut_run site hactive as hruns
  rw [posteDiary_after, ← Diary.of] at hway
  obtain ⟨-, hclosings, htokens⟩ := hway
  have hdays : (Diary.of as).workingDays ≤ (Diary.of as).closed.length * Fintype.card O := by
    rw [if_pos hclosed, add_zero] at hclosings
    calc (Diary.of as).workingDays ≤ ∑ _o : O, (Diary.of as).day :=
          Finset.sum_le_sum fun o _ => honce o
      _ = (Diary.of as).day * Fintype.card O := by simp [mul_comm]
      _ ≤ _ := Nat.mul_le_mul_right _ hclosings
  have hleft : ((poste site).after (World.init site) as).dir.phase.closingsLeft = 0 := by
    cases hphase : ((poste site).after (World.init site) as).dir.phase <;> try rfl
    case closing n =>
      cases n with
      | zero => rfl
      | succ n => exact absurd hphase (hposted n)
  simp only [hleft] at htokens
  omega

/-- The counter at the minute of the closing. -/
def counterBeforeClosing : World (Fin 1) (Fin 1) :=
  ((poste oneCounter).after (((poste oneCounter).after (World.init oneCounter)
    counterMorning).atMinute 480) sitDown).atMinute 1200

theorem counterDay_idle : Idle oneCounter ((poste oneCounter).after
    (((poste oneCounter).after (World.init oneCounter) counterMorning).atMinute 480) sitDown)
    481 :=
  ⟨by decide, by decide, by decide, by decide⟩

theorem counterDay_after : (poste oneCounter).after (World.init oneCounter) counterDay =
    (poste oneCounter).after counterBeforeClosing (closing 1200 1) := by
  rw [counterDay, GuardedSystem.after_append,
    after_quiet counter_idle_morning 478 oneCounter_quiet_morning, GuardedSystem.after_append]
  exact after_quiet counterDay_idle 718 oneCounter_quiet_afternoon _

theorem counterDay_runs : (poste oneCounter).Runs (World.init oneCounter) counterDay := by
  rw [counterDay, GuardedSystem.runs_append,
    runs_quiet counter_idle_morning 478 oneCounter_quiet_morning, GuardedSystem.runs_append]
  refine ⟨by decide, by decide, ?_⟩
  exact (runs_quiet counterDay_idle 718 oneCounter_quiet_afternoon _).mpr (by decide)

theorem nobody_kept_in_counter :
    ((poste oneCounter).after (World.init oneCounter) counterDay).toGoHome ≤
      ((poste oneCounter).after (World.init oneCounter) counterDay).sh.closePosteEvent := by
  refine nobody_kept_in oneCounter ⟨by decide, by decide⟩ counterDay counterDay_runs ?_ ?_ ?_
  · rw [counterDay_after]
    decide
  · rw [counterDay_after]
    exact nofun
  · simp only [Diary.of, counterDay, List.foldl_append, Diary.foldl_quietMinutes]
    decide

end PosteItaliane
