import PosteItaliane.Framework.Vacancies
import PosteItaliane.Proofs.Steps
import PosteItaliane.Proofs.Serving

/-!
# Operators that wait for a seat

`stations_event` announces the seats that operators give back, whatever their service. An
operator waits only after it has seen every seat of its service taken, so a free seat of its
service has been given back and announced. Two operators that take the same seat use up two
announcements.
-/

namespace PosteItaliane

open Framework

/-- In the loop around `sem_timedwait(stations_event)`. -/
def Operatore.Phase.polls : Operatore.Phase → Bool
  | .station | .stationTimeout => true
  | _ => false

/-- From the wait for a station until a seat is taken. -/
def Operatore.Phase.waits : Operatore.Phase → Bool
  | .station | .stationTimeout | .stationFind | .stationRepost | .takeFound _ => true
  | _ => false

/-- Has consumed a token of `stations_event`, and has neither posted it again nor taken a
seat. -/
def Operatore.Phase.hasToken : Operatore.Phase → Bool
  | .stationFind | .stationRepost | .takeFound _ => true
  | _ => false

/-- Between the two halves of `release_seat`. -/
def Operatore.Phase.signals : Operatore.Phase → Bool
  | .signal _ => true
  | _ => false

theorem Operatore.Phase.outside {p : Operatore.Phase} (h : p.inWorkLoop = false) :
    p.waits = false ∧ p.hasToken = false ∧ p.signals = false := by
  cases p <;> first | exact ⟨rfl, rfl, rfl⟩ | cases h

theorem Operatore.Phase.waits_of_polls {p : Operatore.Phase} (h : p.polls = true) :
    p.waits = true := by
  cases p <;> first | rfl | cases h

variable {O U : Type} [Fintype O] [Fintype U]

/-- A free seat does not stay unnoticed while an operator that could staff it waits. -/
def SeatsNoticed (site : Site O U) (w : World O U) : Prop :=
  ∀ o k, k < site.numSeats → (w.sh.seats k).operatorStatus = .free →
    (w.sh.seats k).serviceId = site.userService o → (w.opers o).phase.polls = true →
    0 < w.sh.stationsEvent ∨ (∃ p, (w.opers p).phase.hasToken = true) ∨
      ∃ p, (w.opers p).phase.signals = true

/-- What a step of the simulation is for the vacancies. -/
def vacancyEvent : Act O U → Option (Vacancies.Event O ℕ)
  | .oper _ (.takeFree k) => some (.enter k)
  | .oper o (.takeFound k) => some (.take o k)
  | .oper o (.release k _) => some (.giveBack o k)
  | .oper o .stationEvent => some (.fetch o)
  | .oper o .repost => some (.post o)
  | .oper o (.signal _) => some (.post o)
  | _ => none

/-- The vacancies are the free seats, and the carriers the operators that have a token or
owe one. -/
structure VacanciesOf (site : Site O U) (w : World O U) (g : Vacancies O ℕ) : Prop where
  free : ∀ k < site.numSeats, (w.sh.seats k).operatorStatus = .free → k ∈ g.fresh ∨ k ∈ g.vacant
  fresh : ∀ k ∈ g.fresh, (w.sh.seats k).operatorStatus = .free
  tokens : g.tokens = w.sh.stationsEvent
  carriers : ∀ o, o ∈ g.carriers ↔
    ((w.opers o).phase.hasToken || (w.opers o).phase.signals) = true
  waiting : ∀ o, (w.opers o).phase.waits = true → ∀ k < site.numSeats,
    (w.sh.seats k).serviceId = site.userService o → k ∉ g.fresh
  found : ∀ o k, (w.opers o).phase = .takeFound k →
    k < site.numSeats ∧ (w.sh.seats k).serviceId = site.userService o

theorem waits_step (site : Site O U) {o : O} {l : Operatore.Local} {sh : Shared O U}
    {b : Operatore.Act} (hb : Operatore.Enabled site o l sh b)
    (h : (Operatore.next site o l sh b).1.phase.waits = true) :
    l.phase.waits = true ∨ findSeat site.numSeats sh.seats (site.userService o) = none := by
  cases b
  case noSeat => exact Or.inr hb.2
  all_goals
    left
    simp only [Operatore.Enabled] at hb
    simp only [Operatore.next] at h
    grind [Operatore.Phase.waits]

theorem found_step (site : Site O U) {o : O} {l : Operatore.Local} {sh : Shared O U}
    {b : Operatore.Act} (hb : Operatore.Enabled site o l sh b) {k : ℕ}
    (h : (Operatore.next site o l sh b).1.phase = .takeFound k) :
    findSeat site.numSeats sh.seats (site.userService o) = some k := by
  cases b
  case foundSeat j =>
    cases h
    exact hb.2
  all_goals
    simp only [Operatore.next] at h
    grind

variable [DecidableEq O] [DecidableEq U]

theorem VacanciesOf.oper {site : Site O U} {w : World O U} {g g' : Vacancies O ℕ}
    (h : VacanciesOf site w g) {o : O} {b : Operatore.Act} (ha : w.Enabled site (.oper o b))
    (hfree : ∀ k < site.numSeats,
      ((w.next site (.oper o b)).sh.seats k).operatorStatus = .free → k ∈ g'.fresh ∨ k ∈ g'.vacant)
    (hfresh : ∀ k ∈ g'.fresh, ((w.next site (.oper o b)).sh.seats k).operatorStatus = .free)
    (hsub : g'.fresh ⊆ g.fresh) (htokens : g'.tokens = (w.next site (.oper o b)).sh.stationsEvent)
    (hown : o ∈ g'.carriers ↔
      ((Operatore.next site o (w.opers o) w.sh b).1.phase.hasToken ||
        (Operatore.next site o (w.opers o) w.sh b).1.phase.signals) = true)
    (hothers : ∀ p, p ≠ o → (p ∈ g'.carriers ↔ p ∈ g.carriers)) :
    VacanciesOf site (w.next site (.oper o b)) g' := by
  have hself : (w.next site (.oper o b)).opers o =
      (Operatore.next site o (w.opers o) w.sh b).1 := by
    simp [World.next]
  have hother {p : O} (hp : p ≠ o) : (w.next site (.oper o b)).opers p = w.opers p := by
    simp [World.next, hp]
  have hservice (k : ℕ) := serviceId_step site (w := w) (a := .oper o b) (by simp) k
  refine ⟨hfree, hfresh, htokens, fun p => ?_, fun p hwaits k hk hs hmem => ?_, fun p k hp => ?_⟩
  · by_cases hp : p = o
    · subst p
      rw [hself]
      exact hown
    · rw [hother hp, hothers p hp]
      exact h.carriers p
  · rw [hservice] at hs
    by_cases hp : p = o
    · subst p
      rw [hself] at hwaits
      rcases waits_step site ha.2 hwaits with hold | hnone
      · exact h.waiting o hold k hk hs (hsub hmem)
      · exact findSeat_eq_none hnone hk hs (h.fresh k (hsub hmem))
    · rw [hother hp] at hwaits
      exact h.waiting p hwaits k hk hs (hsub hmem)
  · rw [hservice]
    by_cases hpo : p = o
    · subst p
      rw [hself] at hp
      obtain ⟨hk, -, hs⟩ := findSeat_eq_some (found_step site ha.2 hp)
      exact ⟨hk, hs⟩
    · rw [hother hpo] at hp
      exact h.found p k hp

omit [DecidableEq O] [DecidableEq U] in
theorem VacanciesOf.keep {site : Site O U} {w w' : World O U} {g : Vacancies O ℕ}
    (h : VacanciesOf site w g) (hsame : SameOperators w'.sh.seats w.sh.seats)
    (hservice : ∀ k, (w'.sh.seats k).serviceId = (w.sh.seats k).serviceId)
    (hevent : w'.sh.stationsEvent = w.sh.stationsEvent) (hopers : w'.opers = w.opers) :
    VacanciesOf site w' g where
  free k hk hfree := h.free k hk ((hsame k).2 ▸ hfree)
  fresh k hk := (hsame k).2.trans (h.fresh k hk)
  tokens := h.tokens.trans hevent.symm
  carriers o := by
    rw [hopers]
    exact h.carriers o
  waiting o hwaits k hk hs := by
    rw [hopers] at hwaits
    rw [hservice] at hs
    exact h.waiting o hwaits k hk hs
  found o k hk := by
    rw [hopers] at hk
    rw [hservice]
    exact h.found o k hk

omit [DecidableEq O] [DecidableEq U] in
theorem VacanciesOf.careful {site : Site O U} {w : World O U} {g : Vacancies O ℕ}
    (h : VacanciesOf site w g) {a : Act O U} (ha : w.Enabled site a) (hfree : TakesFree w a)
    {e : Vacancies.Event O ℕ} (he : vacancyEvent a = some e) : Vacancies.Careful g e := by
  cases a with
  | oper o b =>
    cases b <;> simp only [vacancyEvent, reduceCtorEq, Option.some.injEq] at he <;> subst he <;>
      try trivial
    case takeFound k =>
      have hphase : (w.opers o).phase = .takeFound k := ha.2
      obtain ⟨hk, hs⟩ := h.found o k hphase
      have hnot := h.waiting o (by rw [hphase]; rfl) k hk hs
      exact (h.free k hk hfree).resolve_left hnot
  | _ => cases he

omit [DecidableEq O] [DecidableEq U] in
theorem VacanciesOf.taken {site : Site O U} {w : World O U} {g : Vacancies O ℕ}
    (h : VacanciesOf site w g) (k pid : ℕ) :
    (∀ j < site.numSeats, (takeSeat w.sh.seats k pid j).operatorStatus = .free →
      j ∈ g.fresh.erase k ∨ j ∈ g.vacant.erase k) ∧
    ∀ j ∈ g.fresh.erase k, (takeSeat w.sh.seats k pid j).operatorStatus = .free := by
  constructor
  · intro j hj hfree
    have hjk : j ≠ k := by
      rintro rfl
      simp at hfree
    rw [takeSeat_of_ne _ hjk] at hfree
    simpa [hjk] using h.free j hj hfree
  · intro j hj
    obtain ⟨hjk, hmem⟩ := Finset.mem_erase.mp hj
    rw [takeSeat_of_ne _ hjk]
    exact h.fresh j hmem

omit [DecidableEq O] [DecidableEq U] in
theorem VacanciesOf.given {site : Site O U} {w : World O U} {g : Vacancies O ℕ}
    (h : VacanciesOf site w g) (k : ℕ) :
    (∀ j < site.numSeats, (releaseSeat w.sh.seats k j).operatorStatus = .free →
      j ∈ g.fresh ∨ j ∈ insert k g.vacant) ∧
    ∀ j ∈ g.fresh, (releaseSeat w.sh.seats k j).operatorStatus = .free := by
  constructor
  · intro j hj hfree
    by_cases hjk : j = k
    · subst j
      exact Or.inr (Finset.mem_insert_self k g.vacant)
    · rw [releaseSeat_of_ne hjk] at hfree
      exact (h.free j hj hfree).imp_right Finset.mem_insert_of_mem
  · intro j hj
    by_cases hjk : j = k
    · subst j
      simp
    · rw [releaseSeat_of_ne hjk]
      exact h.fresh j hj

theorem vacancies_oper (site : Site O U) {w : World O U} {g : Vacancies O ℕ}
    (h : VacanciesOf site w g) {o : O} {b : Operatore.Act} (ha : w.Enabled site (.oper o b)) :
    match vacancyEvent (U := U) (.oper o b) with
    | none => VacanciesOf site (w.next site (.oper o b)) g
    | some e => Vacancies.system.Enabled g e ∧
        VacanciesOf site (w.next site (.oper o b)) (Vacancies.system.next g e) := by
  have hcarries := h.carriers o
  have he := ha.2
  cases b <;> simp only [vacancyEvent]
  case takeFree k =>
    have hphase : (w.opers o).phase = .seek := he.1
    rw [hphase] at hcarries
    obtain ⟨hfree, hfresh⟩ := h.taken k (site.operatorPid o)
    exact ⟨trivial, h.oper ha hfree hfresh (Finset.erase_subset k g.fresh) h.tokens hcarries
      fun p hp => Iff.rfl⟩
  case takeFound k =>
    have hphase : (w.opers o).phase = .takeFound k := he
    rw [hphase] at hcarries
    obtain ⟨hfree, hfresh⟩ := h.taken k (site.operatorPid o)
    refine ⟨hcarries.mpr rfl, h.oper ha hfree hfresh (Finset.erase_subset k g.fresh) h.tokens
      (iff_of_false (Finset.notMem_erase o g.carriers) Bool.false_ne_true) fun p hp => ?_⟩
    exact Finset.mem_erase.trans (and_iff_right hp)
  case release k early =>
    have hphase : (w.opers o).phase = .release k early := he
    rw [hphase] at hcarries
    obtain ⟨hfree, hfresh⟩ := h.given k
    refine ⟨fun hmem => Bool.false_ne_true (hcarries.mp hmem), h.oper ha hfree hfresh subset_rfl
      h.tokens (iff_of_true (Finset.mem_insert_self o g.carriers) rfl) fun p hp => ?_⟩
    exact Finset.mem_insert.trans (or_iff_right hp)
  case stationEvent =>
    obtain ⟨hphase, htoken⟩ := he
    rw [hphase] at hcarries
    have hpos : 0 < g.tokens := h.tokens ▸ htoken
    refine ⟨⟨fun hmem => Bool.false_ne_true (hcarries.mp hmem), hpos⟩, h.oper ha h.free h.fresh
      subset_rfl (congrArg (· - 1) h.tokens)
      (iff_of_true (Finset.mem_insert_self o g.carriers) rfl) fun p hp => ?_⟩
    exact Finset.mem_insert.trans (or_iff_right hp)
  case repost =>
    have hphase : (w.opers o).phase = .stationRepost := he
    rw [hphase] at hcarries
    refine ⟨hcarries.mpr rfl, h.oper ha h.free h.fresh subset_rfl (congrArg (· + 1) h.tokens)
      (iff_of_false (Finset.notMem_erase o g.carriers) Bool.false_ne_true) fun p hp => ?_⟩
    exact Finset.mem_erase.trans (and_iff_right hp)
  case signal early =>
    have hphase : (w.opers o).phase = .signal early := he
    rw [hphase] at hcarries
    have hnext : ((Operatore.next site o (w.opers o) w.sh (.signal early)).1.phase.hasToken ||
        (Operatore.next site o (w.opers o) w.sh (.signal early)).1.phase.signals) ≠ true := by
      cases early <;> simp [Operatore.next, Operatore.Phase.hasToken, Operatore.Phase.signals]
    refine ⟨hcarries.mpr rfl, h.oper ha h.free h.fresh subset_rfl (congrArg (· + 1) h.tokens)
      (iff_of_false (Finset.notMem_erase o g.carriers) hnext) fun p hp => ?_⟩
    exact Finset.mem_erase.trans (and_iff_right hp)
  all_goals
    refine h.oper ha h.free h.fresh subset_rfl h.tokens ?_ (fun p hp => Iff.rfl)
    rw [hcarries]
    simp only [Operatore.Enabled] at he
    simp only [Operatore.next]
    grind [Operatore.Phase.hasToken, Operatore.Phase.signals]

theorem poste_refines_vacancies (site : Site O U) :
    ((poste site).restrict fun w a => SameDay a ∧ TakesFree w a).Refines
      (Vacancies.system.restrict Vacancies.Careful) (VacanciesOf site) vacancyEvent := by
  rintro w g a h ⟨henabled, hday, hfree⟩
  have ha : w.Enabled site a := henabled
  have hkeep (hnone : vacancyEvent a = none) (hopers : (w.next site a).opers = w.opers)
      (hevent : (w.next site a).sh.stationsEvent = w.sh.stationsEvent)
      (hsame : SameOperators (w.next site a).sh.seats w.sh.seats) :
      VacanciesOf site (w.next site a) g := by
    refine h.keep hsame (serviceId_step site ?_) hevent hopers
    rintro service rfl
    exact hday
  cases a with
  | oper o b =>
    have hstep := vacancies_oper site h ha
    cases hev : vacancyEvent (U := U) (.oper o b) with
    | none =>
      rw [hev] at hstep
      exact hstep
    | some e =>
      rw [hev] at hstep
      exact ⟨⟨hstep.1, h.careful ha hfree hev⟩, hstep.2⟩
  | user u b =>
    have hseats := seat_step site w _ ha
    exact hkeep rfl rfl (by cases b <;> rfl) hseats.2
  | ticket b =>
    have hseats := seat_step site w _ ha
    exact hkeep rfl rfl (by cases b <;> rfl) hseats.2
  | director b =>
    have hseats := seat_step site w _ ha
    have hev : seatEvent site (.director b : Act O U) = none := by
      cases b <;> first | rfl | exact hday.elim
    rw [hev] at hseats
    exact hkeep rfl rfl (by cases b <;> rfl) hseats.2
  | «section» => exact hkeep rfl rfl rfl (SameOperators.refl _)

omit [DecidableEq O] [DecidableEq U] in
/-- When the seats have just been drawn, all of them are fresh. -/
theorem vacanciesOf_drawn {site : Site O U} {w : World O U}
    (hfree : ∀ k < site.numSeats, (w.sh.seats k).operatorStatus = .free)
    (hout : ∀ o, (w.opers o).phase.inWorkLoop = false) :
    VacanciesOf site w ⟨Finset.range site.numSeats, ∅, w.sh.stationsEvent, ∅⟩ where
  free k hk _ := Or.inl (Finset.mem_range.mpr hk)
  fresh k hk := hfree k (Finset.mem_range.mp hk)
  tokens := rfl
  carriers o := by
    obtain ⟨-, htoken, hsignal⟩ := Operatore.Phase.outside (hout o)
    simp [htoken, hsignal]
  waiting o hwaits := by
    have hnot := (Operatore.Phase.outside (hout o)).1
    exact absurd (hnot.symm.trans hwaits) Bool.false_ne_true
  found o k hk := by
    have hnot := hout o
    rw [hk] at hnot
    cases hnot

omit [DecidableEq O] [DecidableEq U] in
theorem VacanciesOf.seatsNoticed {site : Site O U} {w : World O U} {g : Vacancies O ℕ}
    (h : VacanciesOf site w g) (hg : g.Announced) : SeatsNoticed site w := by
  intro o k hk hfree hs hpolls
  have hnot := h.waiting o (Operatore.Phase.waits_of_polls hpolls) k hk hs
  have hvacant := (h.free k hk hfree).resolve_left hnot
  rcases hg.noticed hvacant with htokens | ⟨p, hp⟩
  · exact Or.inl (h.tokens ▸ htokens)
  · right
    rcases Bool.or_eq_true_iff.mp ((h.carriers p).mp hp) with htoken | hsignal
    · exact Or.inl ⟨p, htoken⟩
    · exact Or.inr ⟨p, hsignal⟩

/-- From the moment the seats are drawn until the next day, no free seat stays unnoticed by the
operators that wait for it, as long as a seat found in `wait_for_station` is still free when it
is taken. -/
theorem free_seats_noticed (site : Site O U) (w : World O U) (service : ℕ → ServiceId)
    (hout : ∀ o, ((w.next site (.director (.resetSeats service))).opers o).phase.inWorkLoop = false)
    (as : List (Act O U))
    (h : ((poste site).restrict TakesFree).Runs (w.next site (.director (.resetSeats service))) as)
    (hday : ∀ a ∈ as, SameDay a) :
    SeatsNoticed site
      ((poste site).after (w.next site (.director (.resetSeats service))) as) := by
  have hfree (k : ℕ) (hk : k < site.numSeats) :
      ((w.next site (.director (.resetSeats service))).sh.seats k).operatorStatus = .free := by
    show (resetSeats site.numSeats service w.sh.seats k).operatorStatus = .free
    simp [resetSeats, hk]
  obtain ⟨hruns, hR⟩ := (poste_refines_vacancies site).run (vacanciesOf_drawn hfree hout) as
    (h.restrict_and _ hday)
  exact VacanciesOf.seatsNoticed hR (Vacancies.announced_run (Nat.zero_le _) _ hruns)

/-- The first midnight with three operators, until the seats are drawn. -/
def beforeDraw : List (Act (Fin 3) (Fin 0)) :=
  [Act.oper 0 .waitDay, .oper 1 .waitDay, .oper 2 .waitDay] ++ midnight 1

/-- Operator 0 gives the seat back that operator 1 waits for. -/
def giveSeatBack : List (Act (Fin 3) (Fin 0)) :=
  closing 1200 3 ++ [Act.oper 0 (.closed 0), .oper 0 (.release 0 false)]

def givenBackDay : List (Act (Fin 3) (Fin 0)) :=
  wakeOperators ++ (quietMinutes 1 479 ++ (fillSeat ++ (quietMinutes 481 719 ++ giveSeatBack)))

theorem free_seats_noticed_one_seat : SeatsNoticed oneSeat ((poste oneSeat).after
    (((poste oneSeat).after (World.init oneSeat) beforeDraw).next oneSeat
      (.director (.resetSeats fun _ => 0))) givenBackDay) := by
  have hquiet (m : ℤ) : ∀ a ∈ quietMinute m, ∀ w : World (Fin 3) (Fin 0), TakesFree w a := by
    simp [quietMinute, TakesFree]
  refine free_seats_noticed oneSeat _ (fun _ => 0) (by decide) givenBackDay ?_ ?_
  · rw [givenBackDay, GuardedSystem.runs_append]
    refine ⟨by decide, ?_⟩
    rw [GuardedSystem.restrict_after, runs_quiet_restrict (m := 1) hquiet
      ⟨by decide, by decide, by decide, by decide⟩ 478
      (fun i h1 h2 => oneSeat_quiet (by omega) (by omega) (by omega) (by omega)),
      GuardedSystem.runs_append]
    refine ⟨by decide, ?_⟩
    rw [GuardedSystem.restrict_after, runs_quiet_restrict (m := 481) hquiet
      ⟨by decide, by decide, by decide, by decide⟩ 718
      (fun i h1 h2 => oneSeat_quiet (by omega) (by omega) (by omega) (by omega))]
    decide
  · have hsame (m : ℤ) (k : ℕ) : ∀ a ∈ quietMinutes (O := Fin 3) (U := Fin 0) m k, SameDay a :=
      forall_mem_quietMinutes (by simp [quietMinute, SameDay]) m k
    intro a ha
    simp only [givenBackDay, List.mem_append] at ha
    rcases ha with ha | ha | ha | ha | ha
    · exact (by decide : ∀ a ∈ wakeOperators, SameDay a) a ha
    · exact hsame 1 479 a ha
    · exact (by decide : ∀ a ∈ fillSeat, SameDay a) a ha
    · exact hsame 481 719 a ha
    · exact (by decide : ∀ a ∈ giveSeatBack, SameDay a) a ha

instance neZero_five : NeZero 5 := ⟨by decide⟩

/-- Five operators of one service and two seats. -/
def twoSeats : Site (Fin 5) (Fin 0) :=
  .numbered { defaultConfig with numOperators := 5, numUsers := 0, numWorkerSeats := 2 } 1000
    (fun _ => 0) (by decide) (by decide) (by decide)

theorem twoSeats_quiet {m : ℤ} (h0 : 0 < m) (h1440 : m < 1440) (h480 : m ≠ 480)
    (h1200 : m ≠ 1200) : Quiet twoSeats m :=
  quiet_default rfl rfl h0 h1440 h480 h1200

def twoSeatsNight : List (Act (Fin 5) (Fin 0)) :=
  [Act.oper 0 .waitDay, .oper 1 .waitDay, .oper 2 .waitDay, .oper 3 .waitDay,
    .oper 4 .waitDay] ++ midnight 1

def twoSeatsMorning : List (Act (Fin 5) (Fin 0)) :=
  wakeUps 5 ++ [Act.oper 0 .wake, .oper 1 .wake, .oper 2 .wake, .oper 3 .wake, .oper 4 .wake,
    .oper 0 .waitOpen, .oper 1 .waitOpen, .oper 2 .waitOpen, .oper 3 .waitOpen,
    .oper 4 .waitOpen]

/-- Operators 0 and 1 sit down, and the others wait. -/
def twoSeatsFilled : List (Act (Fin 5) (Fin 0)) :=
  opening 480 5 ++ [Act.oper 0 .enter, .oper 0 .canWork, .oper 0 (.takeFree 0),
    .oper 1 .enter, .oper 1 .canWork, .oper 1 (.takeFree 1),
    .oper 2 .enter, .oper 2 .canWork, .oper 2 .noSeat,
    .oper 3 .enter, .oper 3 .canWork, .oper 3 .noSeat,
    .oper 4 .enter, .oper 4 .canWork, .oper 4 .noSeat]

/-- Both seats are given back, and operators 2 and 3 find the first one of them. -/
def twoForOneSeat : List (Act (Fin 5) (Fin 0)) :=
  closing 1200 5 ++ [Act.oper 0 (.closed 0), .oper 0 (.release 0 false), .oper 0 (.signal false),
    .oper 1 (.closed 1), .oper 1 (.release 1 false), .oper 1 (.signal false),
    .oper 2 .stationEvent, .oper 2 (.foundSeat 0), .oper 3 .stationEvent, .oper 3 (.foundSeat 0),
    .oper 2 (.takeFound 0), .oper 3 (.takeFound 0)]

def twoSeatsDay : List (Act (Fin 5) (Fin 0)) :=
  twoSeatsMorning ++ (quietMinutes 1 479 ++ (twoSeatsFilled ++ (quietMinutes 481 719 ++
    twoForOneSeat)))

def twoSeatsAtOpening : World (Fin 5) (Fin 0) :=
  ((poste twoSeats).after (World.init twoSeats)
    (twoSeatsNight ++ (.director (.resetSeats fun _ => 0) :: twoSeatsMorning))).atMinute 480

def twoSeatsAtClosing : World (Fin 5) (Fin 0) :=
  ((poste twoSeats).after twoSeatsAtOpening twoSeatsFilled).atMinute 1200

theorem twoSeats_idle_morning : Idle twoSeats ((poste twoSeats).after (World.init twoSeats)
    (twoSeatsNight ++ (.director (.resetSeats fun _ => 0) :: twoSeatsMorning))) 1 :=
  ⟨by decide, by decide, by decide, by decide⟩

theorem twoSeats_idle_afternoon :
    Idle twoSeats ((poste twoSeats).after twoSeatsAtOpening twoSeatsFilled) 481 :=
  ⟨by decide, by decide, by decide, by decide⟩

theorem twoSeats_quiet_morning : ∀ i : ℤ, 1 ≤ i → i ≤ 1 + (478 : ℕ) → Quiet twoSeats i :=
  fun i h1 h2 => twoSeats_quiet (by omega) (by omega) (by omega) (by omega)

theorem twoSeats_quiet_afternoon : ∀ i : ℤ, 481 ≤ i → i ≤ 481 + (718 : ℕ) → Quiet twoSeats i :=
  fun i h1 h2 => twoSeats_quiet (by omega) (by omega) (by omega) (by omega)

theorem twoSeatsDay_append : twoSeatsNight ++ (.director (.resetSeats fun _ => 0) :: twoSeatsDay) =
    twoSeatsNight ++ (.director (.resetSeats fun _ => 0) :: twoSeatsMorning) ++
      (quietMinutes 1 479 ++ (twoSeatsFilled ++ (quietMinutes 481 719 ++ twoForOneSeat))) := by
  rw [twoSeatsDay, List.append_assoc, List.cons_append]

theorem twoSeatsDay_after : (poste twoSeats).after (World.init twoSeats)
      (twoSeatsNight ++ (.director (.resetSeats fun _ => 0) :: twoSeatsDay)) =
    (poste twoSeats).after twoSeatsAtClosing twoForOneSeat := by
  rw [twoSeatsDay_append, GuardedSystem.after_append,
    after_quiet twoSeats_idle_morning 478 twoSeats_quiet_morning, GuardedSystem.after_append]
  exact after_quiet twoSeats_idle_afternoon 718 twoSeats_quiet_afternoon _

theorem twoSeatsDay_runs : (poste twoSeats).Runs (World.init twoSeats)
    (twoSeatsNight ++ (.director (.resetSeats fun _ => 0) :: twoSeatsDay)) := by
  rw [twoSeatsDay_append, GuardedSystem.runs_append]
  refine ⟨by decide, ?_⟩
  rw [runs_quiet twoSeats_idle_morning 478 twoSeats_quiet_morning, GuardedSystem.runs_append]
  refine ⟨by decide, ?_⟩
  apply (runs_quiet twoSeats_idle_afternoon 718 twoSeats_quiet_afternoon _).mpr
  decide

theorem twoSeatsDay_sameDay : ∀ a ∈ twoSeatsDay, SameDay a := by
  have hquiet (m : ℤ) (k : ℕ) : ∀ a ∈ quietMinutes (O := Fin 5) (U := Fin 0) m k, SameDay a :=
    forall_mem_quietMinutes (by simp [quietMinute, SameDay]) m k
  intro a ha
  simp only [twoSeatsDay, List.mem_append] at ha
  rcases ha with ha | ha | ha | ha | ha
  · exact (by decide : ∀ a ∈ twoSeatsMorning, SameDay a) a ha
  · exact hquiet 1 479 a ha
  · exact (by decide : ∀ a ∈ twoSeatsFilled, SameDay a) a ha
  · exact hquiet 481 719 a ha
  · exact (by decide : ∀ a ∈ twoForOneSeat, SameDay a) a ha

/-- Seat 1 is free, operator 4 waits for it, and nothing will wake it. -/
theorem seat_unnoticed : ¬ ∀ (pre as : List (Act (Fin 5) (Fin 0))) (service : ℕ → ServiceId),
    (poste twoSeats).Runs (World.init twoSeats) (pre ++ (.director (.resetSeats service) :: as)) →
    (∀ o, (((poste twoSeats).after (World.init twoSeats)
      (pre ++ [.director (.resetSeats service)])).opers o).phase.inWorkLoop = false) →
    ((poste twoSeats).after (World.init twoSeats)
      (pre ++ [.director (.resetSeats service)])).sh.stationsEvent = 0 →
    (∀ a ∈ as, SameDay a) →
    SeatsNoticed twoSeats ((poste twoSeats).after (World.init twoSeats)
      (pre ++ (.director (.resetSeats service) :: as))) := by
  intro hnotices
  have hnoticed := hnotices twoSeatsNight twoSeatsDay (fun _ => 0) twoSeatsDay_runs (by decide)
    (by decide) twoSeatsDay_sameDay
  rw [twoSeatsDay_after] at hnoticed
  have hwoken := hnoticed 4 1 (by decide) (by decide) (by decide) (by decide)
  exact absurd hwoken (by decide)

end PosteItaliane
