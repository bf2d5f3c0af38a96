import PosteItaliane.Proofs.OpeningTokens
import PosteItaliane.Proofs.WorkingDays

/-!
# The days that are owed

The director posts a wake-up for every process and every day, and a process may take one that
was meant for another. The tokens are still conserved: what is left in `day_update_event` is
the number of days that the processes have not lived, less the days that some have lived too
often. So whoever misses a day has lost it to somebody that lives one twice.
-/

namespace PosteItaliane

open Framework

def Utente.Phase.started : Utente.Phase → Bool
  | .notStarted => false
  | _ => true

/-- The users that a request asked for and that are not created yet. -/
def Direttore.Phase.toStart : Direttore.Phase → ℕ
  | .starting n => n
  | _ => 0

variable {O U : Type} [Fintype O] [Fintype U]

/-- The wake-ups of the day that has begun which the director has still to post. -/
def Direttore.Local.wakeUpsLeft (site : Site O U) (l : Direttore.Local) : ℕ :=
  match l.phase with
  | .showStats | .resetStats | .resetSeats => l.children site
  | .waking n => n
  | _ => 0

/-- The days since its creation that a process has not lived. It is negative for a process that
has lived days twice. -/
def daysOwed (s : World O U × Diary O U) (p : Proc O U) : ℤ :=
  if s.1.marks (fun _ => true) Utente.Phase.started p then
    (s.2.day : ℤ) - s.2.createdOn p - (s.2.lived p).length
  else 0

/-- The wake-ups, posted and still to be posted, are the days that are owed. -/
structure WakeUpsOwed (site : Site O U) (s : World O U × Diary O U) : Prop where
  children : (s.1.crowd (fun _ => true) Utente.Phase.started : ℤ) + s.1.dir.phase.toStart =
    site.config.numOperators + s.1.dir.numUsers
  fresh : ∀ u, (s.1.users u).phase.started = false → s.2.lived (.utente u) = []
  owed : ((s.1.sh.dayUpdateEvent + s.1.dir.wakeUpsLeft site : ℕ) : ℤ) = overProcs (daysOwed s)

variable [DecidableEq O] [DecidableEq U]

omit [DecidableEq O] [DecidableEq U] in
theorem WakeUpsOwed.keep {site : Site O U} {w w' : World O U} {D D' : Diary O U}
    (h : WakeUpsOwed site (w, D)) (hday : D'.day = D.day) (hborn : D'.createdOn = D.createdOn)
    (hlived : D'.lived = D.lived)
    (hmarks : w'.marks (fun _ => true) Utente.Phase.started =
      w.marks (fun _ => true) Utente.Phase.started)
    (hchildren : (w'.dir.phase.toStart : ℤ) - w'.dir.numUsers =
      w.dir.phase.toStart - w.dir.numUsers)
    (howed : w'.sh.dayUpdateEvent + w'.dir.wakeUpsLeft site =
      w.sh.dayUpdateEvent + w.dir.wakeUpsLeft site) : WakeUpsOwed site (w', D') where
  children := by
    have hold := h.children
    simp only [World.crowd, hmarks] at hold ⊢
    omega
  fresh u hu := (congrFun hlived _).trans (h.fresh u ((congrFun hmarks (.utente u)).symm.trans hu))
  owed := by
    have hshare : daysOwed (w', D') = daysOwed (w, D) := by
      funext p
      simp only [daysOwed, hmarks, hday, hborn, hlived]
    rw [hshare, ← h.owed, howed]

theorem WakeUpsOwed.wake {site : Site O U} {w w' : World O U} {D : Diary O U}
    (h : WakeUpsOwed site (w, D)) {p : Proc O U}
    (hp : w.marks (fun _ => true) Utente.Phase.started p = true)
    (hmarks : w'.marks (fun _ => true) Utente.Phase.started =
      w.marks (fun _ => true) Utente.Phase.started) (hdir : w'.dir = w.dir)
    (hpos : 0 < w.sh.dayUpdateEvent) (htokens : w'.sh.dayUpdateEvent = w.sh.dayUpdateEvent - 1) :
    WakeUpsOwed site (w', D.wake p) where
  children := by
    have hold := h.children
    simp only [World.crowd, hmarks, hdir] at hold ⊢
    exact hold
  fresh u hu := by
    have hold : w.marks (fun _ => true) Utente.Phase.started (.utente u) = false :=
      (congrFun hmarks (.utente u)).symm.trans hu
    have hne : .utente u ≠ p := by
      rintro rfl
      rw [hp] at hold
      cases hold
    have hlived : (D.wake p).lived (.utente u) = D.lived (.utente u) := by simp [Diary.wake, hne]
    exact hlived.trans (h.fresh u hold)
  owed := by
    have hne : p ≠ .direttore := by
      rintro rfl
      cases hp
    have hshare : daysOwed (w', D.wake p) =
        Function.update (daysOwed (w, D)) p (daysOwed (w, D) p - 1) := by
      funext q
      by_cases hq : q = p
      · subst q
        simp only [daysOwed, hmarks, hp, Diary.wake, Function.update_self, if_true,
          List.length_cons]
        omega
      · simp only [Function.update_of_ne hq]
        simp only [daysOwed, hmarks, Diary.wake, Function.update_of_ne hq]
    have hsum : overProcs (Function.update (daysOwed (w, D)) p (daysOwed (w, D) p - 1)) +
        daysOwed (w, D) p = overProcs (daysOwed (w, D)) + (daysOwed (w, D) p - 1) :=
      overProcs_update (fun n : ℤ => n) (daysOwed (w, D)) hne _
    have hold : ((w.sh.dayUpdateEvent + w.dir.wakeUpsLeft site : ℕ) : ℤ) =
      overProcs (daysOwed (w, D)) := h.owed
    show ((w'.sh.dayUpdateEvent + w'.dir.wakeUpsLeft site : ℕ) : ℤ) = _
    rw [hshare, hdir, htokens]
    omega

omit [DecidableEq O] in
theorem wakeUpsOwed_init (site : Site O U) :
    WakeUpsOwed site (World.init site, (Diary.start : Diary O U)) := by
  refine ⟨?_, fun _ _ => rfl, ?_⟩
  · have hmarks (u : U) : ((World.init site).marks (fun _ => true) Utente.Phase.started
        (.utente u)).toNat = if u ∈ site.initialUsers then 1 else 0 := by
      by_cases hu : u ∈ site.initialUsers <;>
        simp [World.marks, World.init, hu, Utente.Phase.started]
    have hcrowd : (World.init site).crowd (fun _ => true) Utente.Phase.started =
        Fintype.card O + site.initialUsers.card := by
      simp only [World.crowd, overProcs, hmarks]
      simp [World.marks]
    show ((World.init site).crowd (fun _ => true) Utente.Phase.started : ℤ) + 0 = _
    rw [hcrowd, Nat.cast_add, site.operators_started, site.users_started, add_zero]
    rfl
  · have hnone (p : Proc O U) : daysOwed (World.init site, (Diary.start : Diary O U)) p = 0 := by
      simp [daysOwed, Diary.start]
    simp only [overProcs, hnone, Finset.sum_const_zero]
    rfl

omit [DecidableEq O] [DecidableEq U] in
theorem WakeUpsOwed.newDay {site : Site O U} {w w' : World O U} {D D' : Diary O U}
    (h : WakeUpsOwed site (w, D))
    (hmarks : w'.marks (fun _ => true) Utente.Phase.started =
      w.marks (fun _ => true) Utente.Phase.started)
    (hlived : D'.lived = D.lived) (hborn : D'.createdOn = D.createdOn)
    (hday : D'.day = D.day + 1) (hbefore : w.dir.phase = .explodeCheck)
    (hafter : w'.dir.phase = .showStats) (husers : w'.dir.numUsers = w.dir.numUsers)
    (htokens : w'.sh.dayUpdateEvent = w.sh.dayUpdateEvent) : WakeUpsOwed site (w', D') where
  children := by
    have hold := h.children
    simp only [World.crowd, hmarks, hbefore, hafter, husers] at hold ⊢
    exact hold
  fresh u hu := by
    have hold := h.fresh u ((congrFun hmarks (.utente u)).symm.trans hu)
    exact (congrFun hlived _).trans hold
  owed := by
    have hshare : daysOwed (w', D') = fun p => daysOwed (w, D) p +
        ((w.marks (fun _ => true) Utente.Phase.started p).toNat : ℤ) := by
      funext p
      simp only [daysOwed, hmarks, hlived, hborn, hday]
      cases w.marks (fun _ => true) Utente.Phase.started p
      · rfl
      · simp only [if_true, Bool.toNat_true]
        omega
    have hcrowd : overProcs (fun p =>
        ((w.marks (fun _ => true) Utente.Phase.started p).toNat : ℤ)) =
        w.crowd (fun _ => true) Utente.Phase.started := by
      simp [World.crowd, overProcs]
    have hchildren := h.children
    have hold : ((w.sh.dayUpdateEvent + w.dir.wakeUpsLeft site : ℕ) : ℤ) =
      overProcs (daysOwed (w, D)) := h.owed
    show ((w'.sh.dayUpdateEvent + w'.dir.wakeUpsLeft site : ℕ) : ℤ) = _
    rw [hshare, overProcs_add, hcrowd, ← hold, htokens]
    simp only [Direttore.Local.wakeUpsLeft, Direttore.Local.children, hbefore, hafter, husers]
    simp only [hbefore, Direttore.Phase.toStart] at hchildren
    omega

theorem WakeUpsOwed.create {site : Site O U} {w : World O U} {D : Diary O U}
    (h : WakeUpsOwed site (w, D)) {u : U} {n : ℕ} (hphase : w.dir.phase = .starting (n + 1))
    (hnew : (w.users u).phase = .notStarted) :
    WakeUpsOwed site ((posteDiary site).next (w, D) (.director (.startUser u n))) where
  children := by
    have hcrowd := crowd_start (fun _ => true) Utente.Phase.started site w u n
    have hold : (w.crowd (fun _ => true) Utente.Phase.started : ℤ) + w.dir.phase.toStart =
      site.config.numOperators + w.dir.numUsers := h.children
    show ((w.next site (.director (.startUser u n))).crowd _ _ : ℤ) + (n : ℕ) =
      site.config.numOperators + w.dir.numUsers
    simp only [hnew, hphase, Utente.Phase.started, Direttore.Phase.toStart, Bool.toNat_true,
      Bool.toNat_false] at hcrowd hold
    omega
  fresh v hv := by
    have hmarks := congrFun (marks_start (fun _ => true) Utente.Phase.started
      site w u n) (.utente v)
    have hv : (w.next site (.director (.startUser u n))).marks (fun _ => true)
      Utente.Phase.started (.utente v) = false := hv
    by_cases hvu : v = u
    · subst v
      rw [hmarks, Function.update_self] at hv
      cases hv
    · rw [hmarks, Function.update_of_ne (by simp [hvu])] at hv
      exact h.fresh v hv
  owed := by
    have hlived : D.lived (.utente u) = [] := h.fresh u (by rw [hnew]; rfl)
    have hshare : daysOwed ((posteDiary site).next (w, D) (.director (.startUser u n))) =
        daysOwed (w, D) := by
      funext p
      have hmarks := congrFun (marks_start (fun _ => true) Utente.Phase.started
        site w u n) p
      simp only [daysOwed, posteDiary, GuardedSystem.withHistory, poste, hmarks, Diary.record]
      by_cases hp : p = .utente u
      · subst p
        simp [World.marks, hnew, Utente.Phase.started, hlived]
      · simp only [Function.update_of_ne hp]
    have hold : ((w.sh.dayUpdateEvent + w.dir.wakeUpsLeft site : ℕ) : ℤ) =
      overProcs (daysOwed (w, D)) := h.owed
    rw [hshare, ← hold]
    simp only [Direttore.Local.wakeUpsLeft, hphase]
    rfl

theorem WakeUpsOwed.oper {site : Site O U} {w : World O U} {D : Diary O U}
    (h : WakeUpsOwed site (w, D)) {o : O} {b : Operatore.Act}
    (hb : Operatore.Enabled site o (w.opers o) w.sh b) :
    WakeUpsOwed site ((posteDiary site).next (w, D) (.oper o b)) := by
  have hmarks : (w.next site (.oper o b)).marks (fun _ => true) Utente.Phase.started =
      w.marks (fun _ => true) Utente.Phase.started := marks_oper_keep site rfl
  cases b
  case wake => exact h.wake (p := .operatore o) rfl hmarks rfl hb.2 rfl
  all_goals exact h.keep rfl rfl rfl hmarks rfl rfl

theorem WakeUpsOwed.user {site : Site O U} {w : World O U} {D : Diary O U}
    (h : WakeUpsOwed site (w, D)) {u : U} {b : Utente.Act}
    (hb : Utente.Enabled site u (w.users u) w.sh b) :
    WakeUpsOwed site ((posteDiary site).next (w, D) (.user u b)) := by
  have hmarks : (w.next site (.user u b)).marks (fun _ => true) Utente.Phase.started =
      w.marks (fun _ => true) Utente.Phase.started := by
    refine marks_user_keep site ?_
    cases b <;> simp only [Utente.Enabled] at hb <;> simp only [Utente.next] <;>
      grind [Utente.Phase.started]
  cases b
  case wake =>
    refine h.wake (p := .utente u) ?_ hmarks rfl hb.2 rfl
    have hphase : (w.users u).phase = .awaitDay := hb.1
    simp [World.marks, hphase, Utente.Phase.started]
  all_goals exact h.keep rfl rfl rfl hmarks rfl rfl

theorem WakeUpsOwed.director {site : Site O U} {w : World O U} {D : Diary O U}
    (h : WakeUpsOwed site (w, D)) {b : Direttore.Act U}
    (ha : w.Enabled site (.director b)) :
    WakeUpsOwed site ((posteDiary site).next (w, D) (.director b)) := by
  obtain ⟨-, hb, hstart⟩ := ha
  by_cases hcreate : ∃ u n, b = .startUser u n
  · obtain ⟨u, n, rfl⟩ := hcreate
    exact h.create hb hstart
  have hmarks : (w.next site (.director b)).marks (fun _ => true) Utente.Phase.started =
      w.marks (fun _ => true) Utente.Phase.started := by
    cases b <;> first | rfl | exact absurd ⟨_, _, rfl⟩ hcreate
  cases b
  case startNewDay => exact h.newDay hmarks rfl rfl rfl hb.1 rfl rfl rfl
  case startUser u n => exact absurd ⟨u, n, rfl⟩ hcreate
  all_goals
    simp only [Direttore.Enabled] at hb
    refine h.keep rfl rfl rfl hmarks ?_ ?_
    · simp only [poste, World.next, Direttore.next]
      grind [Direttore.Phase.toStart]
    · simp only [poste, World.next, Direttore.next]
      grind [Direttore.Local.wakeUpsLeft, Direttore.Local.children]

theorem wakeUpsOwed_run (site : Site O U) (as : List (Act O U))
    (h : (posteDiary site).Runs (World.init site, Diary.start) as) :
    WakeUpsOwed site ((posteDiary site).after (World.init site, Diary.start) as) := by
  refine (posteDiary site).invariant (P := WakeUpsOwed site) (wakeUpsOwed_init site) ?_ as h
  rintro ⟨w, D⟩ a hs ha
  cases a with
  | oper o b => exact hs.oper ha.2
  | user u b => exact hs.user ha.2
  | ticket b => cases b <;> exact hs.keep rfl rfl rfl rfl rfl rfl
  | director b => exact hs.director ha
  | «section» => exact hs.keep rfl rfl rfl rfl rfl rfl

theorem poste_wakeUpsOwed (site : Site O U) (as : List (Act O U))
    (h : (poste site).Runs (World.init site) as) :
    WakeUpsOwed site ((poste site).after (World.init site) as, Diary.of as) := by
  have hruns := ((poste site).runs_withHistory Diary.record (World.init site) Diary.start as).mpr h
  have howed := wakeUpsOwed_run site as hruns
  rwa [posteDiary_after, ← Diary.of] at howed

/-- At every moment the wake-ups in `day_update_event`, with those that the director has still to
post, are as many as the days that the processes have not lived since they were created, less
those that they have lived too often. -/
theorem wake_ups_are_days_owed (site : Site O U) (as : List (Act O U))
    (h : (poste site).Runs (World.init site) as) :
    ((((poste site).after (World.init site) as).sh.dayUpdateEvent +
        ((poste site).after (World.init site) as).dir.wakeUpsLeft site : ℕ) : ℤ) =
      overProcs (daysOwed ((poste site).after (World.init site) as, Diary.of as)) :=
  (poste_wakeUpsOwed site as h).owed

theorem wake_ups_are_days_owed_counter :
    ((((poste oneCounter).after (World.init oneCounter) counterReturn).sh.dayUpdateEvent +
        ((poste oneCounter).after (World.init oneCounter) counterReturn).dir.wakeUpsLeft
          oneCounter : ℕ) : ℤ) =
      overProcs (daysOwed ((poste oneCounter).after (World.init oneCounter) counterReturn,
        Diary.of counterReturn)) :=
  wake_ups_are_days_owed oneCounter counterReturn (by decide)

omit [DecidableEq O] [DecidableEq U] in
theorem wakeUpsLeft_eq_zero (site : Site O U) {l : Direttore.Local}
    (h : l.phase.inStartNewDay = false) : l.wakeUpsLeft site = 0 := by
  unfold Direttore.Local.wakeUpsLeft
  split <;> simp_all [Direttore.Phase.inStartNewDay]

/-- If a process has missed a day and no wake-up is left, another one has lived more days than
there have been since its creation. -/
theorem missed_day_was_taken (site : Site O U) (as : List (Act O U))
    (h : (poste site).Runs (World.init site) as)
    (hdone : ((poste site).after (World.init site) as).dir.phase.inStartNewDay = false)
    (hnone : ((poste site).after (World.init site) as).sh.dayUpdateEvent = 0) (p : Proc O U)
    (hmissed : 0 < daysOwed ((poste site).after (World.init site) as, Diary.of as) p) :
    ∃ q, daysOwed ((poste site).after (World.init site) as, Diary.of as) q < 0 := by
  by_contra hall
  push Not at hall
  have hp : p ≠ .direttore := by
    rintro rfl
    simp [daysOwed, World.marks] at hmissed
  have hsum := overProcs_pos hall hp hmissed
  have howed := (poste_wakeUpsOwed site as h).owed
  rw [hnone, wakeUpsLeft_eq_zero site hdone] at howed
  rw [← howed] at hsum
  exact absurd hsum (lt_irrefl _)

theorem missed_day_was_taken_counter : ∃ q, daysOwed ((poste oneCounter).after
    (World.init oneCounter) counterReturn, Diary.of counterReturn) q < 0 :=
  missed_day_was_taken oneCounter counterReturn (by decide) (by decide) (by decide) (.operatore 0)
    (by decide)

end PosteItaliane
