import PosteItaliane.Model.Launch
import PosteItaliane.Proofs.ConfigLoading
import PosteItaliane.Proofs.DirectorAlone
import PosteItaliane.Proofs.Sections

/-!
# What an earlier run left behind

Two runs that make the same choices after different contents of the segments. Until the
first day begins nobody but the director does anything, and its first reset clears the day;
the totals, the count of late users that decides the first explode check and, without a
path on the command line, the path are read as they were left.
-/

namespace PosteItaliane

open Framework GuardedSystem

/-- The statistics of the whole simulation. -/
structure Totals where
  simulationGlobal : ServiceStats
  simulationServices : ServiceId → ServiceStats
  activeOperators : ℕ
  pauses : ℕ

def PosteStats.totals (x : PosteStats) : Totals :=
  ⟨x.simulationGlobal, x.simulationServices, x.totalActiveOperators, x.totalSimulationPauses⟩

variable {O U : Type}

/-- The choice of a step: what the director does at the explode check is its own decision. -/
def Direttore.Act.choice : Direttore.Act U → Direttore.Act U
  | .explode => .startNewDay
  | b => b

def EndingAct.choice : EndingAct O U → EndingAct O U
  | .step (.director b) => .step (.director b.choice)
  | a => a

/-- The step is one of the two outcomes of the explode check. -/
def EndingAct.atExplodeCheck : EndingAct O U → Prop
  | .step (.director .explode) | .step (.director .startNewDay) => True
  | _ => False

theorem choice_of_not {a : EndingAct O U} (h : ¬ a.atExplodeCheck) : a.choice = a := by
  cases a with
  | step c =>
    cases c with
    | director b => cases b <;> first | rfl | exact absurd trivial h
    | _ => rfl
  | _ => rfl

theorem atExplodeCheck_choice (a : EndingAct O U) :
    a.choice.atExplodeCheck ↔ a.atExplodeCheck := by
  by_cases h : a.atExplodeCheck
  · refine iff_of_true ?_ h
    cases a with
    | step c =>
      cases c with
      | director b => cases b <;> trivial
      | _ => exact h.elim
    | _ => exact h.elim
  · rw [choice_of_not h]

theorem eq_or_of_choice {a b : EndingAct O U} (h : a.choice = b.choice) :
    a = b ∨ a.atExplodeCheck ∧ b.atExplodeCheck := by
  by_cases ha : a.atExplodeCheck
  · right
    have hb := (atExplodeCheck_choice a).mpr ha
    rw [h, atExplodeCheck_choice] at hb
    exact ⟨ha, hb⟩
  · left
    have hb : ¬ b.atExplodeCheck := by
      rw [← atExplodeCheck_choice, ← h, atExplodeCheck_choice]
      exact ha
    rwa [choice_of_not ha, choice_of_not hb] at h

theorem apply_today (e : StatsWrite) {x y : PosteStats} (h : x.today = y.today) :
    (e.apply x).today = (e.apply y).today := by
  cases e with
  | increment r i => cases r <;> simp [StatsWrite.apply, StatsRecord.modify, h]
  | _ => simp [StatsWrite.apply, h]

theorem apply_totals (e : StatsWrite) {x y : PosteStats} (h : x.totals = y.totals) :
    (e.apply x).totals = (e.apply y).totals := by
  simp only [PosteStats.totals, Totals.mk.injEq] at h ⊢
  obtain ⟨hglobal, hservices, hactive, hpauses⟩ := h
  cases e with
  | increment r i =>
    cases r <;> simp [StatsWrite.apply, StatsRecord.modify, hglobal, hservices, hactive, hpauses]
  | _ => simp [StatsWrite.apply, hglobal, hservices, hactive, hpauses]

/-- The director has not begun the first day, and may have left its loop without one. -/
def Direttore.Local.beforeFirstDay (l : Direttore.Local) : Prop :=
  match l.phase with
  | .loop | .openCheck | .closeCheck | .midnightCheck => l.minutesElapsed = 0
  | .explodeCheck | .showStats | .resetStats | .resetSeats | .over | .exited => True
  | _ => False

/-- The day is the one that was left behind: only the director has done anything yet, and it
has not made its first reset. -/
structure Untouched (prior : DailyStats) (w : World O U) : Prop where
  today : w.sh.stats.value.today = prior
  before : w.dir.beforeFirstDay
  holder : ∀ p ws, w.sh.stats.holder = some (p, ws) →
    p = .direttore ∧ ((∃ day, ws = resetDailyStats day) ∨ ws = [.resetToday])
  resetting : w.dir.phase = .resetSeats → ¬ w.sh.stats.Free
  operators : ∀ o, (w.opers o).phase = .boot ∨ (w.opers o).phase = .awaitDay
  users : ∀ u, (w.users u).phase = .notStarted ∨ (w.users u).phase = .boot ∨
    (w.users u).phase = .awaitDay
  noWakeUp : w.sh.dayUpdateEvent = 0

variable [Fintype O] [Fintype U] [DecidableEq O] [DecidableEq U]

omit [DecidableEq O] [DecidableEq U] in
theorem Untouched.oper {prior : DailyStats} {site : Site O U} {w : World O U}
    (h : Untouched prior w) {o : O} {b : Operatore.Act} (ha : w.Enabled site (.oper o b)) :
    b = .waitDay := by
  have hphase := h.operators o
  have hzero := h.noWakeUp
  obtain ⟨-, he⟩ := ha
  cases b <;> first
    | rfl
    | (simp only [Operatore.Enabled] at he
       grind)

omit [DecidableEq O] [DecidableEq U] in
theorem Untouched.user {prior : DailyStats} {site : Site O U} {w : World O U}
    (h : Untouched prior w) {u : U} {b : Utente.Act} (ha : w.Enabled site (.user u b)) :
    b = .waitDay := by
  have hphase := h.users u
  have hzero := h.noWakeUp
  obtain ⟨-, he⟩ := ha
  cases b <;> first
    | rfl
    | (simp only [Utente.Enabled] at he
       grind)

omit [DecidableEq O] [DecidableEq U] in
theorem beforeFirstDay_step {site : Site O U} {l : Direttore.Local} {sh : Shared O U}
    {b : Direttore.Act U} (h : l.beforeFirstDay) (hseats : l.phase ≠ .resetSeats)
    (hb : Direttore.Enabled site l sh b) :
    (Direttore.next site l sh b).1.beforeFirstDay ∧
      ((Direttore.next site l sh b).1.phase = .resetSeats → ∃ day, b = .resetStats day) ∧
      (Direttore.next site l sh b).2.dayUpdateEvent = sh.dayUpdateEvent ∧
      (∀ u n, b ≠ .startUser u n) ∧ ((∀ day, b ≠ .resetStats day) →
        (Direttore.next site l sh b).2.stats = sh.stats) := by
  obtain ⟨phase, m, days, n, printed⟩ := l
  cases b <;> simp only [Direttore.Enabled] at hb <;>
    simp only [Direttore.next, Direttore.Local.beforeFirstDay] at h ⊢ <;> grind

theorem Untouched.director {prior : DailyStats} {site : Site O U} {w : World O U}
    (h : Untouched prior w) {b : Direttore.Act U} (ha : w.Enabled site (.director b)) :
    Untouched prior (w.next site (.director b)) := by
  have hfree : w.sh.stats.holder = none := by
    cases hholder : w.sh.stats.holder with
    | none => rfl
    | some q =>
      obtain ⟨p, ws⟩ := q
      have hp := (h.holder p ws hholder).1
      exact absurd (by simp [Monitor.inside, hholder, hp]) ha.1
  have hseats : w.dir.phase ≠ .resetSeats := fun hphase => h.resetting hphase hfree
  obtain ⟨hbefore, hreset, hwake, hstart, hstats⟩ := beforeFirstDay_step h.before hseats ha.2.1
  have husers : (w.next site (.director b)).users = w.users := by
    cases b <;> try rfl
    case startUser u n => exact absurd rfl (hstart u n)
  have hvalue : (w.next site (.director b)).sh.stats.value = w.sh.stats.value :=
    value_step site ha (by simp)
  constructor
  · rw [hvalue]
    exact h.today
  · exact hbefore
  · intro p ws hholder
    by_cases hday : ∃ day, b = .resetStats day
    · obtain ⟨day, rfl⟩ := hday
      cases hholder
      exact ⟨rfl, Or.inl ⟨day, rfl⟩⟩
    · have hkeep : (w.next site (.director b)).sh.stats = w.sh.stats :=
        hstats fun day hb => hday ⟨day, hb⟩
      rw [hkeep, hfree] at hholder
      cases hholder
  · intro hphase hnow
    obtain ⟨day, rfl⟩ := hreset hphase
    cases hnow
  · exact h.operators
  · rw [husers]
    exact h.users
  · exact hwake.trans h.noWakeUp

/-- The day that was left behind stays until the director's first reset. -/
theorem Untouched.step {prior : DailyStats} {site : Site O U} {w : World O U}
    (h : Untouched prior w) {a : Act O U} (ha : w.Enabled site a) :
    Untouched prior (w.next site a) ∨
      a = .section ∧ w.sh.stats.holder = some (.direttore, [.resetToday]) := by
  cases a with
  | oper o b =>
    left
    have hb := h.oper ha
    subst hb
    refine ⟨h.today, h.before, h.holder, h.resetting, ?_, h.users, h.noWakeUp⟩
    intro p
    by_cases hp : p = o
    · subst hp
      simp [World.next, Operatore.next]
    · simpa [World.next, hp] using h.operators p
  | user u b =>
    left
    have hb := h.user ha
    subst hb
    refine ⟨h.today, h.before, h.holder, h.resetting, h.operators, ?_, h.noWakeUp⟩
    intro v
    by_cases hv : v = u
    · subst hv
      simp [World.next, Utente.next]
    · simpa [World.next, hv] using h.users v
  | ticket b =>
    left
    cases b <;> exact ⟨h.today, h.before, h.holder, h.resetting, h.operators, h.users, h.noWakeUp⟩
  | director b => exact Or.inl (h.director ha)
  | «section» =>
    rcases section_cases site ha with ⟨p, hholder, -⟩ | ⟨p, e, ws, hholder, hnext⟩
    · obtain ⟨-, ⟨day, hws⟩ | hws⟩ := h.holder p _ hholder <;> cases hws
    · obtain ⟨rfl, ⟨day, hws⟩ | hws⟩ := h.holder p _ hholder
      · cases hws
        left
        refine ⟨?_, h.before, ?_, ?_, h.operators, h.users, h.noWakeUp⟩
        · rw [hnext]
          exact h.today
        · intro p ws hnow
          rw [hnext] at hnow
          cases hnow
          exact ⟨rfl, Or.inr rfl⟩
        · intro _ hnow
          rw [hnext] at hnow
          cases hnow
      · rw [hws] at hholder
        exact Or.inr ⟨rfl, hholder⟩

omit [DecidableEq O] in
theorem untouched_launch (L : Launch O U) (prior : Segments) :
    Untouched prior.stats.today (L.world prior) where
  today := rfl
  before := rfl
  holder p ws hholder := by cases hholder
  resetting hphase := by cases hphase
  operators o := Or.inl rfl
  users u := by
    by_cases hu : u ∈ L.site.initialUsers
    · exact Or.inr (Or.inl (if_pos hu))
    · exact Or.inl (if_neg hu)
  noWakeUp := rfl

/-- The director and the lock are the same in both worlds, and so is what is counted, except
that neither day has been reset yet. -/
structure Alike (prior prior' : DailyStats) (w w' : World O U) : Prop where
  dir : { w.dir with printed := w'.dir.printed } = w'.dir
  holder : w.sh.stats.holder = w'.sh.stats.holder
  totals : w.sh.stats.value.totals = w'.sh.stats.value.totals
  today : w.sh.stats.value.today = w'.sh.stats.value.today ∨
    Untouched prior w ∧ Untouched prior' w'

omit [Fintype O] [Fintype U] [DecidableEq O] [DecidableEq U] in
theorem Alike.late_iff {prior prior' : DailyStats} {w w' : World O U} {m : ℤ}
    (h : Alike prior prior' w w') (hfirst : m < prior.lateUsers ↔ m < prior'.lateUsers) :
    m < w.sh.stats.value.today.lateUsers ↔ m < w'.sh.stats.value.today.lateUsers := by
  rcases h.today with hsame | ⟨hw, hw'⟩
  · rw [hsame]
  · rw [hw.today, hw'.today]
    exact hfirst

theorem Alike.dir_step {prior prior' : DailyStats} {site : Site O U} {w w' : World O U}
    (h : Alike prior prior' w w') (a : Act O U) :
    { (w.next site a).dir with printed := (w'.next site a).dir.printed } =
      (w'.next site a).dir := by
  have hdir := h.dir
  obtain ⟨sh, opers, users, ticket, ⟨phase, m, days, n, printed⟩⟩ := w
  obtain ⟨sh', opers', users', ticket', ⟨phase', m', days', n', printed'⟩⟩ := w'
  cases hdir
  cases a with
  | director b => cases b <;> rfl
  | _ => rfl

theorem Alike.outside_step {prior prior' : DailyStats} {site : Site O U} {w w' : World O U}
    (h : Alike prior prior' w w') {a : Act O U} (ha : w.Enabled site a)
    (ha' : w'.Enabled site a) (hsection : a ≠ .section) :
    Alike prior prior' (w.next site a) (w'.next site a) := by
  have hvalue := value_step site ha hsection
  have hvalue' := value_step site ha' hsection
  constructor
  · exact h.dir_step a
  · have hstep := stats_step site w a ha
    have hstep' := stats_step site w' a ha'
    cases hev : statsEvent site a with
    | none =>
      rw [hev] at hstep hstep'
      rw [hstep, hstep']
      exact h.holder
    | some e =>
      rw [hev] at hstep hstep'
      cases e with
      | begin p op =>
        rw [hstep.2, hstep'.2]
        rfl
      | advance => exact absurd ((statsEvent_eq_advance site).mp hev) hsection
  · rw [hvalue, hvalue']
    exact h.totals
  · rcases h.today with hsame | ⟨hw, hw'⟩
    · left
      rw [hvalue, hvalue']
      exact hsame
    · right
      have hno (x : World O U) : ¬ (a = .section ∧ x.sh.stats.holder =
          some (.direttore, [.resetToday])) := fun hboth => hsection hboth.1
      exact ⟨(hw.step ha).resolve_right (hno w), (hw'.step ha').resolve_right (hno w')⟩

theorem Alike.section_step {prior prior' : DailyStats} {site : Site O U} {w w' : World O U}
    (h : Alike prior prior' w w') (ha : w.Enabled site .section)
    (ha' : w'.Enabled site .section) :
    Alike prior prior' (w.next site .section) (w'.next site .section) := by
  rcases section_cases site ha with ⟨p, hholder, hnext⟩ | ⟨p, e, ws, hholder, hnext⟩ <;>
    rcases section_cases site ha' with ⟨p', hholder', hnext'⟩ | ⟨p', e', ws', hholder', hnext'⟩ <;>
    cases hholder.symm.trans (h.holder.trans hholder')
  · refine ⟨h.dir_step .section, by rw [hnext, hnext'], by rw [hnext, hnext']; exact h.totals, ?_⟩
    rcases h.today with hsame | ⟨hw, hw'⟩
    · left
      rw [hnext, hnext']
      exact hsame
    · right
      exact ⟨(hw.step ha).resolve_right (by simp [hholder]),
        (hw'.step ha').resolve_right (by simp [hholder'])⟩
  · refine ⟨h.dir_step .section, by rw [hnext, hnext'], ?_, ?_⟩
    · rw [hnext, hnext']
      exact apply_totals e h.totals
    · rcases h.today with hsame | ⟨hw, hw'⟩
      · left
        rw [hnext, hnext']
        exact apply_today e hsame
      · by_cases hreset : e :: ws = [.resetToday]
        · left
          cases hreset
          rw [hnext, hnext']
          rfl
        · right
          have hother : w.sh.stats.holder ≠ some (.direttore, [.resetToday]) := by
            intro hheld
            cases hholder.symm.trans hheld
            exact hreset rfl
          exact ⟨(hw.step ha).resolve_right fun hr => hother hr.2,
            (hw'.step ha').resolve_right fun hr => hother (h.holder.trans hr.2)⟩

theorem Alike.step {prior prior' : DailyStats} {site : Site O U} {w w' : World O U}
    (h : Alike prior prior' w w') {a : Act O U} (ha : w.Enabled site a)
    (ha' : w'.Enabled site a) : Alike prior prior' (w.next site a) (w'.next site a) := by
  by_cases hsection : a = .section
  · subst hsection
    exact h.section_step ha ha'
  · exact h.outside_step ha ha' hsection

/-- The reports agree on the totals and on the exit mode. -/
def FinalReport.Agree (r r' : FinalReport) : Prop :=
  r.stats.totals = r'.stats.totals ∧ r.exitMode = r'.exitMode

/-- Both simulations are alike, and so are their reports. -/
structure AlikeEnding (prior prior' : DailyStats) (e e' : Ending O U) : Prop where
  world : Alike prior prior' e.world e'.world
  report : ∀ r r', e.report = some r → e'.report = some r' → r.Agree r'

theorem Alike.explodeCheck_eq {prior prior' : DailyStats} {L : Launch O U}
    {child : Option PosteConfig} {e e' : Ending O U} (h : Alike prior prior' e.world e'.world)
    (hfirst : L.site.config.explodeMax < prior.lateUsers ↔
      L.site.config.explodeMax < prior'.lateUsers) {a b : EndingAct O U}
    (ha : (posteLaunch L child).Enabled e a) (hb : (posteLaunch L child).Enabled e' b)
    (hacheck : a.atExplodeCheck) (hbcheck : b.atExplodeCheck) : a = b := by
  have hlate := h.late_iff hfirst
  have hcases (c : EndingAct O U) (hc : c.atExplodeCheck) :
      c = .step (.director .explode) ∨ c = .step (.director .startNewDay) := by
    cases c with
    | step d =>
      cases d with
      | director x => cases x <;> first | exact Or.inl rfl | exact Or.inr rfl | exact hc.elim
      | _ => exact hc.elim
    | _ => exact hc.elim
  rcases hcases a hacheck with rfl | rfl <;> rcases hcases b hbcheck with rfl | rfl
  · rfl
  · have hmore := ha.1.2.1.2
    have hless := hb.1.2.1.2
    rw [hlate] at hmore
    omega
  · have hless := ha.1.2.1.2
    have hmore := hb.1.2.1.2
    rw [← hlate] at hmore
    omega
  · rfl

theorem enabled_siteOf {L : Launch O U} {child : Option PosteConfig} {e : Ending O U}
    {a : EndingAct O U} (ha : (posteLaunch L child).Enabled e a) :
    ∃ site, a.siteOf L child = some site ∧ e.Enabled site a ∧
      (posteLaunch L child).next e a = e.next site a := by
  simp only [posteLaunch] at ha ⊢
  cases hsite : a.siteOf L child with
  | none => simp [hsite] at ha
  | some site =>
    simp only [hsite] at ha
    exact ⟨site, rfl, ha, rfl⟩

theorem AlikeEnding.step {prior prior' : DailyStats} {L : Launch O U} {child : Option PosteConfig}
    {e e' : Ending O U} (h : AlikeEnding prior prior' e e')
    (hfirst : L.site.config.explodeMax < prior.lateUsers ↔
      L.site.config.explodeMax < prior'.lateUsers) {a b : EndingAct O U}
    (ha : (posteLaunch L child).Enabled e a) (hb : (posteLaunch L child).Enabled e' b)
    (hchoice : a.choice = b.choice) : a = b ∧ AlikeEnding prior prior'
      ((posteLaunch L child).next e a) ((posteLaunch L child).next e' b) := by
  have hab : a = b := by
    rcases eq_or_of_choice hchoice with hab | ⟨hacheck, hbcheck⟩
    · exact hab
    · exact h.world.explodeCheck_eq hfirst ha hb hacheck hbcheck
  subst hab
  refine ⟨rfl, ?_⟩
  obtain ⟨site, hsite, he, hnext⟩ := enabled_siteOf ha
  obtain ⟨site', hsite', he', hnext'⟩ := enabled_siteOf hb
  obtain rfl : site = site' := Option.some.inj (hsite.symm.trans hsite')
  rw [hnext, hnext']
  cases a with
  | step c => exact ⟨h.world.step he.1 he'.1, h.report⟩
  | kill c => exact ⟨h.world, h.report⟩
  | report =>
    refine ⟨h.world, ?_⟩
    obtain rfl : L.site = site := Option.some.inj hsite
    intro r r' hr hr'
    cases hr
    cases hr'
    refine ⟨h.world.totals, ?_⟩
    simp only [Ending.finalReport, writeStats, h.world.late_iff hfirst]

/-- The children load the same configuration, and in two simulations that make the same
choices the director decides the same way and the final reports agree. -/
structure RunsAlike (L : Launch O U) (p p' : Segments) : Prop where
  config : L.childConfig p = L.childConfig p'
  decisions : ∀ es es', (posteLaunch L (L.childConfig p)).Runs (L.start p) es →
    (posteLaunch L (L.childConfig p')).Runs (L.start p') es' →
    es.map EndingAct.choice = es'.map EndingAct.choice → es = es'
  reports : ∀ es es', (posteLaunch L (L.childConfig p)).Runs (L.start p) es →
    (posteLaunch L (L.childConfig p')).Runs (L.start p') es' →
    es.map EndingAct.choice = es'.map EndingAct.choice → ∀ r r',
    ((posteLaunch L (L.childConfig p)).after (L.start p) es).report = some r →
    ((posteLaunch L (L.childConfig p')).after (L.start p') es').report = some r' → r.Agree r'

/-- The totals are the same, the first explode check comes out the same, and without a path
on the command line the two paths lead to the same configuration. -/
structure SameLeftovers (L : Launch O U) (p p' : Segments) : Prop where
  totals : p.stats.totals = p'.stats.totals
  firstCheck : L.site.config.explodeMax < p.stats.today.lateUsers ↔
    L.site.config.explodeMax < p'.stats.today.lateUsers
  path : configFile L.argv = none → loadConfigFile L.files (some (cString p.configurationFile)) =
    loadConfigFile L.files (some (cString p'.configurationFile))

theorem cString_writePath {field : List Char} (hfield : field.length = maxPathLength)
    (path : List Char) : cString (writePath field path) = cString (path.take maxPathLength) := by
  unfold writePath cString
  by_cases hlen : path.length < maxPathLength
  · rw [List.take_of_length_le hlen.le, List.set_append_right _ _ le_rfl, Nat.sub_self]
    have hpos : 0 < (field.drop path.length).length := by
      rw [List.length_drop]
      omega
    cases hrest : field.drop path.length with
    | nil => simp [hrest] at hpos
    | cons c rest =>
      rw [List.set_cons_zero, List.takeWhile_append]
      split
      · next hall =>
        rw [(List.takeWhile_prefix _).eq_of_length hall]
        simp
      · rfl
  · rw [List.drop_eq_nil_of_le (by omega), List.append_nil, List.set_eq_of_length_le]
    rw [List.length_take]
    omega

omit [DecidableEq O] [DecidableEq U] in
theorem childConfig_eq {L : Launch O U} {p p' : Segments}
    (h : configFile L.argv = none → loadConfigFile L.files (some (cString p.configurationFile)) =
      loadConfigFile L.files (some (cString p'.configurationFile))) :
    L.childConfig p = L.childConfig p' := by
  unfold Launch.childConfig Launch.configurationFile
  cases hpath : configFile L.argv with
  | none => exact h hpath
  | some path =>
    dsimp only
    rw [cString_writePath p.length_eq, cString_writePath p'.length_eq]

omit [DecidableEq O] in
theorem alike_launch {L : Launch O U} {p p' : Segments} (h : p.stats.totals = p'.stats.totals) :
    AlikeEnding p.stats.today p'.stats.today (L.start p) (L.start p') where
  world :=
    { dir := rfl
      holder := rfl
      totals := h
      today := Or.inr ⟨untouched_launch L p, untouched_launch L p'⟩ }
  report r r' hr := by cases hr

/-- What has to agree is enough. -/
theorem SameLeftovers.runsAlike {L : Launch O U} {p p' : Segments} (h : SameLeftovers L p p') :
    RunsAlike L p p' := by
  have hconfig := childConfig_eq h.path
  have hlock (es es' : List (EndingAct O U))
      (hes : (posteLaunch L (L.childConfig p)).Runs (L.start p) es)
      (hes' : (posteLaunch L (L.childConfig p')).Runs (L.start p') es')
      (hchoice : es.map EndingAct.choice = es'.map EndingAct.choice) := by
    rw [← hconfig] at hes'
    exact lockstep (fun _ _ _ _ hR ha hb => hR.step h.firstCheck ha hb)
      (alike_launch h.totals) es es' hes hes' hchoice
  refine ⟨hconfig, fun es es' hes hes' hchoice => (hlock es es' hes hes' hchoice).1, ?_⟩
  intro es es' hes hes' hchoice r r' hr hr'
  rw [← hconfig] at hr'
  exact (hlock es es' hes hes' hchoice).2.report r r' hr hr'

theorem launch_alone (L : Launch O U) (child : Option PosteConfig) {w : World O U}
    {as : List (Act O U)} (h : (directorAlone L.site).Runs w as) :
    (posteLaunch L child).Runs ⟨w, fun _ => false, none⟩ (as.map .step) ∧
      (posteLaunch L child).after ⟨w, fun _ => false, none⟩ (as.map .step) =
        ⟨(poste L.site).after w as, fun _ => false, none⟩ := by
  induction as generalizing w with
  | nil => exact ⟨trivial, rfl⟩
  | cons a as ih =>
    obtain ⟨⟨henabled, halone⟩, hrest⟩ := h
    obtain ⟨hruns, hafter⟩ := ih hrest
    have hsite : (EndingAct.step a).siteOf L child = some L.site := by
      cases a <;> first | rfl | exact halone.elim
    have halive : (w.childOf a).all (fun _ => true) = true := by
      cases w.childOf a <;> rfl
    have hstep : (posteLaunch L child).Enabled ⟨w, fun _ => false, none⟩ (.step a) := by
      simp only [posteLaunch, hsite]
      exact ⟨henabled, halive⟩
    have hnext : (posteLaunch L child).next ⟨w, fun _ => false, none⟩ (.step a) =
        ⟨w.next L.site a, fun _ => false, none⟩ := by
      simp only [posteLaunch, hsite]
      rfl
    constructor
    · refine ⟨hstep, ?_⟩
      rw [hnext]
      exact hruns
    · rw [List.map_cons, after_cons, hnext]
      exact hafter

theorem totals_alone {site : Site O U} {w : World O U} (hfree : w.sh.stats.Free)
    {as : List (Act O U)} (h : (directorAlone site).Runs w as) :
    ((poste site).after w as).sh.stats.value.totals = w.sh.stats.value.totals := by
  have hall := (directorAlone site).invariant (P := fun x => x.sh.stats.value.totals =
    w.sh.stats.value.totals ∧ ∀ e ∈ x.sh.stats.pending, e.ofDirector = true) ?_ ?_ as h
  · exact hall.1
  · have hnone : w.sh.stats.holder = none := hfree
    simp [Monitor.pending, hnone]
  · intro x a hx ha
    obtain ⟨henabled, halone⟩ := ha
    cases a with
    | director b =>
      have hstep : x.Enabled site (.director b) := henabled
      have hvalue := value_step site hstep (by simp)
      refine ⟨(congrArg PosteStats.totals hvalue).trans hx.1, ?_⟩
      cases b <;> try exact hx.2
      case resetStats day =>
        show ∀ e ∈ resetDailyStats day, _
        simp [resetDailyStats, StatsWrite.ofDirector]
      case publishMinute minute =>
        show ∀ e ∈ PosteItaliane.publishMinute minute, _
        simp [publishMinute, StatsWrite.ofDirector]
    | «section» =>
      have hstats : ((directorAlone site).next x .section).sh.stats =
          (x.next site .section).sh.stats := rfl
      rw [hstats]
      rcases section_cases site henabled with ⟨p, -, hnext⟩ | ⟨p, e, ws, hholder, hnext⟩
      · rw [hnext]
        exact ⟨hx.1, by simp [Monitor.pending]⟩
      · have hpending := hx.2
        simp only [Monitor.pending, hholder] at hpending
        rw [hnext]
        refine ⟨?_, fun e' he' => hpending e' (List.mem_cons_of_mem e he')⟩
        have he : e.ofDirector = true := hpending e List.mem_cons_self
        cases e <;> first | exact hx.1 | cases he
    | oper o b => exact halone.elim
    | user u b => exact halone.elim
    | ticket b => exact halone.elim

/-- The table of children. -/
noncomputable def children (O U : Type) [Fintype O] [Fintype U] : List (Child O U) :=
  .erogatore :: ((Finset.univ : Finset O).toList.map .operatore ++
    (Finset.univ : Finset U).toList.map .utente)

omit [DecidableEq O] [DecidableEq U] in
theorem mem_children (c : Child O U) : c ∈ children O U := by
  cases c <;> simp [children]

omit [DecidableEq O] [DecidableEq U] in
theorem children_nodup : (children O U).Nodup := by
  have hopers : ((Finset.univ : Finset O).toList.map (Child.operatore (U := U))).Nodup :=
    (Finset.nodup_toList _).map fun _ _ h => Child.operatore.inj h
  have husers : ((Finset.univ : Finset U).toList.map (Child.utente (O := O))).Nodup :=
    (Finset.nodup_toList _).map fun _ _ h => Child.utente.inj h
  refine List.nodup_cons.mpr ⟨by simp, List.nodup_append.mpr ⟨hopers, husers, ?_⟩⟩
  simp

theorem kill_all (L : Launch O U) (child : Option PosteConfig) {w : World O U}
    (hover : w.dir.phase = .over) {cs : List (Child O U)} (hcs : cs.Nodup)
    {killed : Child O U → Bool} (halive : ∀ c ∈ cs, killed c = false) :
    (posteLaunch L child).Runs ⟨w, killed, none⟩ (cs.map .kill) ∧
      (posteLaunch L child).after ⟨w, killed, none⟩ (cs.map .kill) =
        ⟨w, fun c => killed c || decide (c ∈ cs), none⟩ := by
  induction cs generalizing killed with
  | nil => exact ⟨trivial, by simp⟩
  | cons c cs ih =>
    obtain ⟨hnot, hrest⟩ := List.nodup_cons.mp hcs
    have hnext : ∀ c' ∈ cs, Function.update killed c true c' = false := by
      intro c' hc'
      have hne : c' ≠ c := by
        intro heq
        subst heq
        exact hnot hc'
      rw [Function.update_of_ne hne]
      exact halive c' (List.mem_cons_of_mem c hc')
    obtain ⟨hruns, hafter⟩ := ih hrest hnext
    refine ⟨⟨⟨hover, rfl, halive c List.mem_cons_self⟩, hruns⟩, ?_⟩
    rw [List.map_cons, after_cons]
    refine hafter.trans (congrArg (Ending.mk w · none) (funext fun c' => ?_))
    by_cases heq : c' = c
    · simp [heq]
    · simp [heq]

theorem report_alone (L : Launch O U) (child : Option PosteConfig) (prior : Segments)
    {as : List (Act O U)} (h : (directorAlone L.site).Runs (L.world prior) as)
    (hover : ((poste L.site).after (L.world prior) as).dir.phase = .over) :
    (posteLaunch L child).Runs (L.start prior)
        (as.map .step ++ ((children O U).map .kill ++ [.report])) ∧
      ∃ r, ((posteLaunch L child).after (L.start prior)
        (as.map .step ++ ((children O U).map .kill ++ [.report]))).report = some r ∧
        r.stats.totals = prior.stats.totals := by
  obtain ⟨hsteps, hworld⟩ := launch_alone L child h
  have halive : ∀ c ∈ children O U, (fun _ : Child O U => false) c = false := fun _ _ => rfl
  obtain ⟨hkills, hkilled⟩ := kill_all L child hover children_nodup halive
  have hall : (⟨(poste L.site).after (L.world prior) as,
      fun c => false || decide (c ∈ children O U), none⟩ : Ending O U).AllKilled := by
    refine ⟨?_, fun o => ?_, fun u _ => ?_⟩ <;> simp [mem_children]
  rw [runs_append, runs_append, after_append, after_append, Launch.start, hworld, hkilled]
  refine ⟨⟨hsteps, hkills, ⟨hover, rfl, hall⟩, trivial⟩, _, rfl, ?_⟩
  exact totals_alone (w := L.world prior) rfl h

/-- The director before its first explode check. -/
def firstNight : List (Act O U) :=
  [.director .tick, .director .skipOpen, .director .skipClose, .director .midnight]

theorem firstNight_alone (L : Launch O U) (prior : Segments)
    (hdays : 0 < L.site.config.simDuration) :
    (directorAlone L.site).Runs (L.world prior) firstNight ∧
      ((poste L.site).after (L.world prior) firstNight).dir.phase = .explodeCheck ∧
      ((poste L.site).after (L.world prior) firstNight).sh = (L.world prior).sh := by
  refine ⟨?_, rfl, rfl⟩
  simp [firstNight, Runs, directorAlone, restrict, Act.ofDirector, poste, World.Enabled,
    World.next, World.CanStart, Direttore.Enabled, Direttore.next, Monitor.inside, Launch.world,
    World.init, hdays]

omit [DecidableEq O] [DecidableEq U] in
theorem launch_accepted (L : Launch O U) : L.site.config.Accepted := by
  have hloaded := L.loaded
  unfold loadConfigFile at hloaded
  split at hloaded
  · rw [← Option.some.inj hloaded]
    exact defaultConfig_accepted
  · rw [← Option.some.inj hloaded]
    exact defaultConfig_accepted
  · obtain ⟨file, -, hfile⟩ := Option.map_eq_some_iff.mp hloaded
    rw [← hfile]
    exact loadConfig_accepted _ file defaultConfig_accepted

theorem explode_alone (L : Launch O U) (prior : Segments)
    (hlate : L.site.config.explodeMax < prior.stats.today.lateUsers) :
    (directorAlone L.site).Runs (L.world prior) (firstNight ++ [.director .explode]) := by
  obtain ⟨-, -, -, hdays, -⟩ := launch_accepted L
  obtain ⟨hruns, hphase, hsh⟩ := firstNight_alone L prior hdays
  rw [runs_snoc]
  refine ⟨hruns, ⟨?_, ⟨hphase, ?_⟩, trivial⟩, trivial⟩
  · rw [directorAlone, restrict_after, hsh]
    simp [Monitor.inside, Launch.world]
  · rw [directorAlone, restrict_after, hsh]
    exact hlate

theorem startNewDay_alone (L : Launch O U) (prior : Segments)
    (hlate : (prior.stats.today.lateUsers : ℤ) ≤ L.site.config.explodeMax) :
    (directorAlone L.site).Runs (L.world prior) (firstNight ++ [.director .startNewDay]) := by
  obtain ⟨-, -, -, hdays, -⟩ := launch_accepted L
  obtain ⟨hruns, hphase, hsh⟩ := firstNight_alone L prior hdays
  rw [runs_snoc]
  refine ⟨hruns, ⟨?_, ⟨hphase, ?_⟩, trivial⟩, trivial⟩
  · rw [directorAlone, restrict_after, hsh]
    simp [Monitor.inside, Launch.world]
  · rw [directorAlone, restrict_after, hsh]
    exact hlate

theorem RunsAlike.symm {L : Launch O U} {p p' : Segments} (h : RunsAlike L p p') :
    RunsAlike L p' p where
  config := h.config.symm
  decisions es es' hes hes' hchoice := (h.decisions es' es hes' hes hchoice.symm).symm
  reports es es' hes hes' hchoice r r' hr hr' := by
    obtain ⟨htotals, hmode⟩ := h.reports es' es hes' hes hchoice.symm r' r hr' hr
    exact ⟨htotals.symm, hmode.symm⟩

theorem RunsAlike.explodes {L : Launch O U} {p p' : Segments} (h : RunsAlike L p p')
    (hlate : L.site.config.explodeMax < p.stats.today.lateUsers) :
    L.site.config.explodeMax < p'.stats.today.lateUsers := by
  by_contra hnot
  have hruns := (launch_alone L (L.childConfig p) (explode_alone L p hlate)).1
  have hruns' := (launch_alone L (L.childConfig p') (startNewDay_alone L p' (by omega))).1
  have hsame := h.decisions _ _ hruns hruns' rfl
  simp at hsame

theorem exists_over (L : Launch O U) {p p' : Segments}
    (hfirst : L.site.config.explodeMax < p.stats.today.lateUsers ↔
      L.site.config.explodeMax < p'.stats.today.lateUsers) :
    ∃ as, ((directorAlone L.site).Runs (L.world p) as ∧
        ((poste L.site).after (L.world p) as).dir.phase = .over) ∧
      ((directorAlone L.site).Runs (L.world p') as ∧
        ((poste L.site).after (L.world p') as).dir.phase = .over) := by
  by_cases hlate : L.site.config.explodeMax < p.stats.today.lateUsers
  · exact ⟨firstNight ++ [.director .explode], ⟨explode_alone L p hlate, rfl⟩,
      explode_alone L p' (hfirst.mp hlate), rfl⟩
  · obtain ⟨-, -, -, hdays, -, -, -, -, -, hexplode, -, -⟩ := launch_accepted L
    obtain ⟨as, has⟩ := leads_over (n := L.site.config.numUsers) hexplode hdays
    have hover (q : Segments)
        (hq : (q.stats.today.lateUsers : ℤ) ≤ L.site.config.explodeMax) :
        (directorAlone L.site).Runs (L.world q) as ∧
          ((poste L.site).after (L.world q) as).dir.phase = .over := by
      obtain ⟨hruns, hend⟩ := has (L.world q) ⟨rfl, rfl, rfl, rfl, rfl, hq⟩
      exact ⟨hruns, hend.phase⟩
    exact ⟨as, hover p (by omega), hover p' (by omega)⟩

theorem RunsAlike.totals_eq {L : Launch O U} {p p' : Segments} (h : RunsAlike L p p') :
    p.stats.totals = p'.stats.totals := by
  obtain ⟨as, ⟨hruns, hover⟩, hruns', hover'⟩ := exists_over L ⟨h.explodes, h.symm.explodes⟩
  obtain ⟨hall, r, hr, htotals⟩ := report_alone L (L.childConfig p) p hruns hover
  obtain ⟨hall', r', hr', htotals'⟩ := report_alone L (L.childConfig p') p' hruns' hover'
  rw [← htotals, ← htotals']
  exact (h.reports _ _ hall hall' rfl r r' hr hr').1

/-- Two runs do not depend on what they find in the segments exactly if the leftovers are the
same in the totals, the first explode check and the path that is read. -/
theorem runs_alike_iff (L : Launch O U) (p p' : Segments) :
    RunsAlike L p p' ↔ SameLeftovers L p p' := by
  constructor
  · intro h
    refine ⟨h.totals_eq, ⟨h.explodes, h.symm.explodes⟩, fun hnone => ?_⟩
    simpa only [Launch.childConfig, Launch.configurationFile, hnone] using h.config
  · exact SameLeftovers.runsAlike

/-- The program without arguments. -/
def plainLaunch : Launch (Fin 10) (Fin 5) where
  argv := []
  files := fun _ => none
  site := .numbered defaultConfig 1000 (fun _ => 0) (by decide) (by decide) (by decide)
  loaded := rfl

/-- A run was broken off after one shift. -/
def brokenOff : Segments := { Segments.fresh with stats := { totalActiveOperators := 1 } }

/-- The final statistics still count the operator of the broken run. -/
theorem leftover_reported : ¬ ∀ p p' : Segments, RunsAlike plainLaunch p p' := by
  intro halike
  have htotals := (halike Segments.fresh brokenOff).totals_eq
  exact absurd (congrArg Totals.activeOperators htotals) (by decide)

end PosteItaliane
