import PosteItaliane.Proofs.DailyReports
import PosteItaliane.Proofs.SimulationLength
import PosteItaliane.Proofs.Choices

/-!
# The day change

The director draws the seats anew without looking who sits there. When it begins a new day
the shift is over, so nobody starts a visit any more; if by then everybody has gone, and no
operator comes in before the seats are drawn, it finds them empty.
-/

namespace PosteItaliane

open Framework

/-- `start_new_day` up to its loop over the seats. -/
def Direttore.Phase.beforeSeats : Direttore.Phase → Bool
  | .showStats | .resetStats | .resetSeats => true
  | _ => false

/-- From passing `open_poste_event` to the locked section of `release_seat`. -/
def Operatore.Phase.onDuty : Operatore.Phase → Bool
  | .signal _ | .countPause => false
  | p => p.inWorkLoop

theorem Operatore.Phase.chosenSeat_of_not_onDuty {p : Operatore.Phase} (h : p.onDuty = false) :
    p.chosenSeat = none := by
  cases p <;> first | rfl | cases h

variable {O U : Type} [Fintype O] [Fintype U]

/-- Everybody is gone when the director begins a new day, and no operator comes in before it
has drawn the seats. -/
def GoneByMidnight (w : World O U) : Act O U → Prop
  | .director .startNewDay => (∀ o, (w.opers o).phase.onDuty = false) ∧
      ∀ u, (w.users u).phase.inHandleService = false
  | .oper _ .enter => w.dir.phase.beforeSeats = false
  | _ => True

instance decidableGoneByMidnight (w : World O U) (a : Act O U) :
    Decidable (GoneByMidnight w a) := by
  rcases a with ⟨o, b⟩ | _ | _ | b | _
  case oper => rcases b with _ | _ <;> (dsimp only [GoneByMidnight]; infer_instance)
  case director => rcases b with _ | _ <;> (dsimp only [GoneByMidnight]; infer_instance)
  all_goals exact isTrue trivial

/-- The seats are drawn anew only when nobody sits there, an operator serves at a seat of its
service, and who gives a seat back gives back its own. -/
structure SeatsKept (site : Site O U) (w : World O U) : Prop where
  redrawn : ∀ service, w.Enabled site (.director (.resetSeats service)) →
    (∀ o, w.currentSeat o = none) ∧ ∀ u, w.heldSeat u = none
  service : ∀ o k, w.currentSeat o = some k → (w.sh.seats k).serviceId = site.userService o
  released : ∀ o k early, w.Enabled site (.oper o (.release k early)) →
    (w.sh.seats k).operatorProcess = site.operatorPid o ∧
      ∀ p, w.currentSeat p = some k → p = o
  freed : ∀ u x k, w.Enabled site (.user u (.releaseSeat x k)) →
    ∀ v, w.heldSeat v = some k → v = u

/-- Before the seats of the first day are drawn. -/
def Direttore.Local.firstNight (l : Direttore.Local) : Prop :=
  l.daysElapsed ≤ 0 ∨
    l.daysElapsed = 1 ∧ (l.phase = .explodeCheck ∨ l.phase.beforeSeats = true)

/-- What the director's counters say, and that all users sleep until the first day begins. -/
structure Timed (site : Site O U) (w : World O U) : Prop where
  calendar : w.dir.phase.Calendar site.config.simDuration w.dir.daysElapsed w.dir.minutesElapsed
  schedule : 1 ≤ site.config.simDuration → OnSchedule site.config.simDuration w
  asleep : w.dir.firstNight → w.sh.dayUpdateEvent = 0 ∧ ∀ u, (w.users u).phase.inCycle = false

theorem firstNight_director (site : Site O U) {l : Direttore.Local} {sh : Shared O U}
    {b : Direttore.Act U} (hb : Direttore.Enabled site l sh b)
    (hcal : l.phase.Calendar site.config.simDuration l.daysElapsed l.minutesElapsed)
    (hnext : (Direttore.next site l sh b).1.firstNight) :
    l.firstNight ∧ (Direttore.next site l sh b).2.dayUpdateEvent = sh.dayUpdateEvent := by
  obtain ⟨phase, m, days, n, printed⟩ := l
  cases b <;> simp only [Direttore.Enabled] at hb <;>
    simp only [Direttore.next, Direttore.Local.firstNight] at hnext ⊢ <;>
    grind [Direttore.Phase.Calendar, Direttore.Phase.beforeSeats]

variable [DecidableEq O] [DecidableEq U]

theorem Timed.asleep_step {site : Site O U} {w : World O U} (h : Timed site w) {a : Act O U}
    (ha : w.Enabled site a) (hnight : (w.next site a).dir.firstNight) :
    (w.next site a).sh.dayUpdateEvent = 0 ∧
      ∀ u, ((w.next site a).users u).phase.inCycle = false := by
  have hkeep {u : U} (hfirst : w.dir.firstNight) {b : Utente.Act}
      (he : Utente.Enabled site u (w.users u) w.sh b) :
      (Utente.next site u (w.users u) w.sh b).1.phase.inCycle = false := by
    obtain ⟨hevent, hasleep⟩ := h.asleep hfirst
    have hu := hasleep u
    cases b <;> simp only [Utente.Enabled] at he <;> simp only [Utente.next] <;>
      grind [Utente.Phase.inCycle]
  cases a with
  | oper o b =>
    obtain ⟨hevent, hasleep⟩ := h.asleep hnight
    refine ⟨?_, hasleep⟩
    cases b <;> try exact hevent
    case wake =>
      have hpos := ha.2.2
      omega
  | user u b =>
    obtain ⟨hevent, hasleep⟩ := h.asleep hnight
    constructor
    · cases b <;> try exact hevent
      case wake =>
        have hpos := ha.2.2
        omega
    · intro v
      rcases user_step site ha v with hv | ⟨c, hc, he, hv⟩ | ⟨n, hn, -, -⟩
      · rw [hv]
        exact hasleep v
      · rw [hv]
        exact hkeep hnight he
      · cases hn
  | ticket b =>
    have hevent : (w.next site (.ticket b)).sh.dayUpdateEvent = w.sh.dayUpdateEvent := by
      cases b <;> rfl
    rw [hevent]
    exact h.asleep hnight
  | director b =>
    obtain ⟨hfirst, hevent⟩ := firstNight_director site ha.2.1 h.calendar hnight
    obtain ⟨hzero, hasleep⟩ := h.asleep hfirst
    refine ⟨hevent.trans hzero, fun u => ?_⟩
    exact (users_director (fun _ p => p.inCycle) (fun _ => rfl) site ha.2.2 u).trans (hasleep u)
  | «section» => exact h.asleep hnight

theorem Timed.step {site : Site O U} {w : World O U} (h : Timed site w) {a : Act O U}
    (ha : w.Enabled site a) : Timed site (w.next site a) where
  calendar := by
    cases a with
    | director b => exact calendar_step site rfl h.calendar ha.2.1
    | _ => exact h.calendar
  schedule hN := (h.schedule hN).step rfl hN ha
  asleep := h.asleep_step ha

omit [DecidableEq O] in
theorem timed_init (site : Site O U) : Timed site (World.init site) where
  calendar := Or.inl ⟨rfl, rfl⟩
  schedule _ := onSchedule_init site _
  asleep _ := by
    refine ⟨rfl, fun u => ?_⟩
    simp only [World.init]
    split <;> rfl

theorem Timed.midnight {site : Site O U} {w : World O U} (h : Timed site w)
    (hphase : w.dir.phase.beforeSeats = true) :
    w.dir.firstNight ∨ w.sh.stats.value.currentMinute = 1440 := by
  have hcal := h.calendar
  have hN : 1 ≤ site.config.simDuration := by
    cases hp : w.dir.phase <;> rw [hp] at hphase hcal <;> try cases hphase
    all_goals
      simp only [Direttore.Phase.Calendar] at hcal
      omega
  have hsched := h.schedule hN
  have hwrites : w.awaitsWrite StatsWrite.setsMinute = false := by
    by_contra hawaits
    rw [hsched.held.loop_of_awaits (Bool.not_eq_false _ ▸ hawaits)] at hphase
    cases hphase
  have hdated := hsched.dated
  unfold World.Dated at hdated
  rw [hwrites] at hdated
  cases hp : w.dir.phase <;> rw [hp] at hphase hcal hdated <;> try cases hphase
  all_goals
    simp only [Direttore.Phase.Calendar] at hcal
    simp only [Direttore.Phase.Dated, Direttore.Local.firstNight, hp,
      Direttore.Phase.beforeSeats] at hdated ⊢
    grind

theorem Timed.not_nextService {site : Site O U} (hclose : site.config.workerShiftClose ≤ 24)
    {w : World O U} (h : Timed site w) (hphase : w.dir.phase.beforeSeats = true) {u : U}
    {s : ServiceId} {rest : List ServiceId} : ¬ w.Enabled site (.user u (.nextService s rest)) := by
  rintro ⟨-, hservices, -, hopen⟩
  rcases h.midnight hphase with hnight | hminute
  · have hasleep := (h.asleep hnight).2 u
    rw [hservices] at hasleep
    cases hasleep
  · refine hopen ?_
    show site.config.workerShiftClose * 60 ≤ w.sh.stats.value.currentMinute
    omega

/-- While the seats are still to be drawn, nobody has one or can get one. -/
def Vacated (w : World O U) : Prop :=
  w.dir.phase.beforeSeats = true → (∀ o, (w.opers o).phase.onDuty = false) ∧
    ∀ u, (w.users u).phase.inHandleService = false

theorem onDuty_step (site : Site O U) {w : World O U} {a : Act O U} (ha : w.Enabled site a)
    {o : O} (hout : (w.opers o).phase.onDuty = false) (henter : a ≠ .oper o .enter) :
    ((w.next site a).opers o).phase.onDuty = false := by
  rcases oper_step site ha o with ho | ⟨b, rfl, he, ho⟩
  · rw [ho]
    exact hout
  · rw [ho]
    cases b <;> simp only [Operatore.Enabled] at he <;> simp only [Operatore.next] <;>
      grind [Operatore.Phase.onDuty, Operatore.Phase.inWorkLoop]

theorem inHandleService_step (site : Site O U) {w : World O U} {a : Act O U}
    (ha : w.Enabled site a) {u : U} (hout : (w.users u).phase.inHandleService = false)
    (hnext : ∀ s rest, a ≠ .user u (.nextService s rest)) :
    ((w.next site a).users u).phase.inHandleService = false := by
  rcases user_step site ha u with hu | ⟨b, rfl, he, hu⟩ | ⟨n, -, -, hu⟩
  · rw [hu]
    exact hout
  · rw [hu]
    cases b
    case nextService s rest => exact absurd rfl (hnext s rest)
    all_goals
      simp only [Utente.Enabled] at he
      simp only [Utente.next]
      grind [Utente.Phase.inHandleService]
  · rw [hu]
    rfl

theorem Vacated.step {site : Site O U} (hclose : site.config.workerShiftClose ≤ 24)
    {w : World O U} (htimed : Timed site w) (h : Vacated w) {a : Act O U} (ha : w.Enabled site a)
    (hgone : GoneByMidnight w a) : Vacated (w.next site a) := by
  intro hnext
  have hkeep (hphase : w.dir.phase.beforeSeats = true) :
      (∀ o, ((w.next site a).opers o).phase.onDuty = false) ∧
        ∀ u, ((w.next site a).users u).phase.inHandleService = false := by
    obtain ⟨hopers, husers⟩ := h hphase
    constructor
    · intro o
      refine onDuty_step site ha (hopers o) ?_
      rintro rfl
      exact absurd (hgone.symm.trans hphase) (by simp)
    · intro u
      refine inHandleService_step site ha (husers u) fun s rest => ?_
      rintro rfl
      exact htimed.not_nextService hclose hphase ha
  cases a with
  | director b =>
    have hb := ha.2.1
    cases b <;> try exact absurd hnext Bool.false_ne_true
    case startNewDay => exact hgone
    case printDayStats =>
      have hphase : w.dir.phase = .showStats := hb
      exact hkeep (by rw [hphase]; rfl)
    case resetStats day =>
      have hphase : w.dir.phase = .resetStats := hb.1
      exact hkeep (by rw [hphase]; rfl)
  | _ => exact hkeep hnext

omit [Fintype O] [Fintype U] [DecidableEq O] [DecidableEq U] in
theorem eq_resetSeats {a : Act O U} (h : ¬ SameDay a) :
    ∃ service, a = .director (.resetSeats service) := by
  cases a with
  | director b =>
    cases b <;> try exact absurd trivial h
    case resetSeats service => exact ⟨service, rfl⟩
  | _ => exact absurd trivial h

theorem registered_step {site : Site O U} {w : World O U}
    (h : ∃ g, RegistryOf site w g ∧ g.HoldersNamed) {a : Act O U} (ha : w.Enabled site a)
    (hfree : TakesFree w a) (hempty : ¬ SameDay a → ∀ o, w.currentSeat o = none) :
    ∃ g, RegistryOf site (w.next site a) g ∧ g.HoldersNamed := by
  obtain ⟨g, hR, hg⟩ := h
  have hstep := poste_refines_registry site w g a hR ha
  cases hev : seatEvent site a with
  | none =>
    rw [hev] at hstep
    exact ⟨g, hstep, hg⟩
  | some e =>
    rw [hev] at hstep
    refine ⟨_, hstep.2, ?_⟩
    by_cases hday : SameDay a
    · exact Registry.holdersNamed_step g e hg ⟨hstep.1, hR.careful ha hday hfree hev⟩
    · intro o k hold
      have hnone := hempty hday o
      obtain ⟨service, rfl⟩ := eq_resetSeats hday
      rw [hstep.2.holds] at hold
      exact absurd (hnone.symm.trans hold) (by simp)

theorem userRegistered_step {site : Site O U} {w : World O U}
    (h : ∃ g, UserRegistryOf w g ∧ g.HoldersNamed) {a : Act O U} (ha : w.Enabled site a)
    (hempty : ¬ SameDay a → ∀ u, w.heldSeat u = none) :
    ∃ g, UserRegistryOf (w.next site a) g ∧ g.HoldersNamed := by
  by_cases hday : SameDay a
  · obtain ⟨g, hR, hg⟩ := h
    have hstep := poste_refines_userRegistry site w g a hR ⟨ha, hday⟩
    cases hev : userSeatEvent site a with
    | none =>
      rw [hev] at hstep
      exact ⟨g, hstep, hg⟩
    | some e =>
      rw [hev] at hstep
      exact ⟨_, hstep.2, Registry.holdersNamed_step g e hg hstep.1⟩
  · have hnone := hempty hday
    obtain ⟨service, rfl⟩ := eq_resetSeats hday
    refine ⟨⟨w.heldSeat, fun _ => none⟩, ⟨rfl, by simp⟩, fun u k hu => ?_⟩
    exact absurd ((hnone u).symm.trans hu) (by simp)

structure DayKept (site : Site O U) (w : World O U) : Prop where
  timed : Timed site w
  vacated : Vacated w
  registered : ∃ g, RegistryOf site w g ∧ g.HoldersNamed
  userRegistered : ∃ g, UserRegistryOf w g ∧ g.HoldersNamed
  service : ∀ o k, (w.opers o).phase.chosenSeat = some k →
    (w.sh.seats k).serviceId = site.userService o

omit [DecidableEq O] [DecidableEq U] in
theorem DayKept.empty {site : Site O U} {w : World O U} (h : DayKept site w)
    {service : ℕ → ServiceId} (ha : w.Enabled site (.director (.resetSeats service))) :
    (∀ o, (w.opers o).phase.chosenSeat = none) ∧ ∀ u, w.heldSeat u = none := by
  have hphase : w.dir.phase = .resetSeats := ha.2.1
  obtain ⟨hopers, husers⟩ := h.vacated (by rw [hphase]; rfl)
  exact ⟨fun o => Operatore.Phase.chosenSeat_of_not_onDuty (hopers o),
    fun u => Utente.Phase.heldSeat_eq_none (husers u)⟩

omit [Fintype O] [Fintype U] [DecidableEq O] [DecidableEq U] in
theorem currentSeat_of_chosenSeat {w : World O U} {o : O}
    (h : (w.opers o).phase.chosenSeat = none) : w.currentSeat o = none := by
  by_contra hseat
  obtain ⟨k, hk⟩ := Option.ne_none_iff_exists'.mp hseat
  exact absurd (h.symm.trans (Operatore.Phase.chosenSeat_of_currentSeat hk)) (by simp)

theorem DayKept.step {site : Site O U} (hclose : site.config.workerShiftClose ≤ 24)
    {w : World O U} (h : DayKept site w) {a : Act O U} (ha : w.Enabled site a)
    (hgone : GoneByMidnight w a) (hfree : TakesFree w a) : DayKept site (w.next site a) where
  timed := h.timed.step ha
  vacated := h.vacated.step hclose h.timed ha hgone
  registered := by
    refine registered_step h.registered ha hfree fun hday o => ?_
    obtain ⟨service, rfl⟩ := eq_resetSeats hday
    exact currentSeat_of_chosenSeat ((h.empty ha).1 o)
  userRegistered := by
    refine userRegistered_step h.userRegistered ha fun hday u => ?_
    obtain ⟨service, rfl⟩ := eq_resetSeats hday
    exact (h.empty ha).2 u
  service o k hk := by
    by_cases hday : SameDay a
    · rw [serviceId_step site (by rintro service rfl; exact hday)]
      rcases chosenSeat_step site ha hk with hold | hservice
      · exact h.service o k hold
      · exact hservice
    · obtain ⟨service, rfl⟩ := eq_resetSeats hday
      exact absurd (((h.empty ha).1 o).symm.trans hk) (by simp)

omit [DecidableEq O] in
theorem dayKept_init (site : Site O U) : DayKept site (World.init site) where
  timed := timed_init site
  vacated h := by cases h
  registered := ⟨_, registryOf_init site, fun o k h => by cases h⟩
  userRegistered := by
    refine ⟨⟨fun _ => none, fun _ => none⟩, ⟨?_, by simp⟩, fun u k h => by cases h⟩
    funext u
    simp only [World.heldSeat, World.init]
    split <;> rfl
  service o k h := by cases h

omit [DecidableEq O] [DecidableEq U] in
theorem DayKept.seatsKept {site : Site O U} {w : World O U} (h : DayKept site w) :
    SeatsKept site w where
  redrawn service ha :=
    ⟨fun o => currentSeat_of_chosenSeat ((h.empty ha).1 o), (h.empty ha).2⟩
  service o k hk := h.service o k (Operatore.Phase.chosenSeat_of_currentSeat hk)
  released o k early ha := by
    obtain ⟨g, hR, hg⟩ := h.registered
    have hserving := hR.servingNamed hg
    have hphase : (w.opers o).phase = .release k early := ha.2
    have hseat : w.currentSeat o = some k := by
      rw [World.currentSeat, hphase]
      rfl
    exact ⟨(hserving.named o k hseat).2, fun p hp => hserving.apart p o k hp hseat⟩
  freed u x k ha v hv := by
    obtain ⟨g, hR, hg⟩ := h.userRegistered
    have hphase : (w.users u).phase = .releaseSeat x k := ha.2
    have hseat : w.heldSeat u = some k := by
      rw [World.heldSeat, hphase]
      rfl
    exact hg.unique (by rw [hR.holds, hv]) (by rw [hR.holds, hseat])

/-- If everybody is gone when a new day begins and seats are taken only while they are free,
the day change never pulls a seat from under its occupants. -/
theorem seats_kept (site : Site O U) (hclose : site.config.workerShiftClose ≤ 24)
    (as : List (Act O U))
    (h : ((poste site).restrict fun w a => GoneByMidnight w a ∧ TakesFree w a).Runs
      (World.init site) as) : SeatsKept site ((poste site).after (World.init site) as) := by
  have hkept := ((poste site).restrict fun w a => GoneByMidnight w a ∧ TakesFree w a).invariant
    (P := DayKept site) (dayKept_init site)
    (fun w a hw ha => hw.step hclose ha.1 ha.2.1 ha.2.2) as h
  exact hkept.seatsKept

/-- The operator goes home in time, and the second day begins. -/
def counterHomeward : List (Act (Fin 1) (Fin 1)) :=
  leaveCounter ++ [Act.oper 0 .countActive, .section, .section, .section]

def counterNight : List (Act (Fin 1) (Fin 1)) := counterEvening counterHomeward (midnight 2)

theorem seats_kept_counter :
    SeatsKept oneCounter ((poste oneCounter).after (World.init oneCounter) counterNight) := by
  have hquiet (m : ℤ) : ∀ a ∈ quietMinute m, ∀ w : World (Fin 1) (Fin 1),
      GoneByMidnight w a ∧ TakesFree w a := by
    simp [quietMinute, GoneByMidnight, TakesFree]
  refine seats_kept oneCounter (by decide) counterNight ?_
  rw [counterNight, counterEvening, GuardedSystem.runs_append, GuardedSystem.restrict_after,
    runs_quiet_restrict hquiet counter_idle_morning 478 oneCounter_quiet_morning,
    GuardedSystem.runs_append, GuardedSystem.restrict_after]
  refine ⟨by decide, by decide, ?_⟩
  apply (runs_quiet_restrict hquiet counter_idle_afternoon 718 oneCounter_quiet_afternoon _).mpr
  rw [GuardedSystem.runs_append, GuardedSystem.restrict_after]
  refine ⟨by decide, ?_⟩
  refine (runs_quiet_restrict hquiet ?_ 238 oneCounter_quiet_evening _).mpr ?_
  · exact ⟨by decide, by decide, by decide, by decide⟩
  · decide

/-- The operator does not look at `close_poste_event` before midnight, and the seats are drawn
while it serves. -/
theorem seat_drawn_under_operator : ¬ ∀ as : List (Act (Fin 1) (Fin 1)),
    (poste oneCounter).Runs (World.init oneCounter) as →
    SeatsKept oneCounter ((poste oneCounter).after (World.init oneCounter) as) := by
  intro hseats
  have hidle : Idle oneCounter ((poste oneCounter).after counterAtClosing (closing 1200 1)) 1201 :=
    ⟨by decide, by decide, by decide, by decide⟩
  have hmidnight : (poste oneCounter).Runs (((poste oneCounter).after counterAtClosing
      (closing 1200 1)).atMinute 1440) (midnight 2) := by
    decide
  have hkept := hseats _ (counterEvening_runs (by decide) hidle hmidnight)
  rw [counterEvening_after hidle] at hkept
  have hempty := (hkept.redrawn (fun _ => 1) (by decide)).1 0
  exact absurd hempty (by decide)

end PosteItaliane
