import PosteItaliane.Proofs.Headcounts
import PosteItaliane.Proofs.SimulationLength

/-!
# Nobody is locked out

`open_poste_event` is posted once a day, for as many processes as there are at that moment,
and taken by whoever comes to the door. Users stay at home, users are created during the day,
and a token left over from yesterday is taken today. Still, from the opening to midnight there
is a token for everybody who is at the door or can still be woken to come to it.
-/

namespace PosteItaliane

open Framework

variable {O U : Type} [Fintype O] [Fintype U]

/-- Woken for the day, and not past `sem_wait(open_poste_event)`. -/
def Operatore.Phase.beforeEntry : Operatore.Phase → Bool
  | .morning | .awaitOpen => true
  | _ => false

/-- Woken for the day, and not past `sem_wait(open_poste_event)`. -/
def Utente.Phase.beforeEntry : Utente.Phase → Bool
  | .morning | .awaitOpen _ => true
  | _ => false

/-- The processes that may still come to the door without being woken again. -/
def World.onTheWay (w : World O U) : ℕ :=
  w.crowd Operatore.Phase.beforeEntry Utente.Phase.beforeEntry

/-- The processes the director knows of. -/
def Direttore.Local.children (site : Site O U) (l : Direttore.Local) : ℕ :=
  (site.config.numOperators + l.numUsers).toNat

/-- The opening of the current day, or of the one that begins, is still to come. -/
def Direttore.Local.beforeOpening (site : Site O U) (l : Direttore.Local) : Bool :=
  match l.phase with
  | .loop | .openCheck | .over | .exited => l.minutesElapsed ≤ site.config.workerShiftOpen * 60
  | .opening _ => false
  | .closeCheck | .closing _ | .midnightCheck | .newUsers | .starting _ | .clock =>
    l.minutesElapsed < site.config.workerShiftOpen * 60
  | .explodeCheck | .showStats | .resetStats | .resetSeats | .waking _ => true

/-- The opening tokens that the director has still to post, for the current day or for the one
that begins. -/
def Direttore.Local.openingsDue (site : Site O U) (l : Direttore.Local) : ℕ :=
  match l.phase with
  | .opening n => n
  | _ => if l.beforeOpening site then l.children site else 0

/-- The wake-ups that the director has still to post before that opening. -/
def Direttore.Local.wakeUpsDue (site : Site O U) (l : Direttore.Local) : ℕ :=
  match l.phase with
  | .explodeCheck | .showStats | .resetStats | .resetSeats => l.children site
  | .waking n => n
  | .over | .exited => 0
  | _ => if l.daysElapsed = 0 then l.children site else 0

/-- Everybody who is on the way or will be has a token, there or promised. -/
structure DoorOpen (site : Site O U) (w : World O U) : Prop where
  calendar : w.dir.phase.Calendar site.config.simDuration w.dir.daysElapsed w.dir.minutesElapsed
  minute : ∀ n, w.dir.phase = .opening n →
    w.dir.minutesElapsed = site.config.workerShiftOpen * 60
  tokens : w.sh.dayUpdateEvent + w.dir.wakeUpsDue site + w.onTheWay ≤
    w.sh.openPosteEvent + w.dir.openingsDue site

variable [DecidableEq O] [DecidableEq U]

/-- The hours for which the office is opened every day. -/
def PosteConfig.OpensDaily (config : PosteConfig) : Prop :=
  1 ≤ config.workerShiftOpen ∧ config.workerShiftOpen ≤ 24

omit [DecidableEq O] [DecidableEq U] in
theorem minute_step (site : Site O U) {l : Direttore.Local} {sh : Shared O U}
    {b : Direttore.Act U}
    (h : ∀ n, l.phase = .opening n → l.minutesElapsed = site.config.workerShiftOpen * 60)
    (hb : Direttore.Enabled site l sh b) (n : ℕ)
    (hn : (Direttore.next site l sh b).1.phase = .opening n) :
    (Direttore.next site l sh b).1.minutesElapsed = site.config.workerShiftOpen * 60 := by
  cases b <;> simp only [Direttore.Enabled] at hb <;> simp only [Direttore.next] at hn ⊢ <;>
    first | exact hb.2.1 | exact h _ hb | cases hn

omit [DecidableEq O] [DecidableEq U] in
/-- A step of the director posts what is due, or puts off what it owes. -/
theorem tokens_director (site : Site O U) (hopen : site.config.OpensDaily)
    {l : Direttore.Local} {sh : Shared O U} {b : Direttore.Act U}
    (hcal : l.phase.Calendar site.config.simDuration l.daysElapsed l.minutesElapsed)
    (hminute : ∀ n, l.phase = .opening n →
      l.minutesElapsed = site.config.workerShiftOpen * 60)
    (hb : Direttore.Enabled site l sh b) {n : ℕ}
    (h : sh.dayUpdateEvent + l.wakeUpsDue site + n ≤ sh.openPosteEvent + l.openingsDue site) :
    (Direttore.next site l sh b).2.dayUpdateEvent +
        (Direttore.next site l sh b).1.wakeUpsDue site + n ≤
      (Direttore.next site l sh b).2.openPosteEvent +
        (Direttore.next site l sh b).1.openingsDue site := by
  obtain ⟨hpos, h24⟩ := hopen
  obtain ⟨phase, m, days, users, printed⟩ := l
  cases b <;> simp only [Direttore.Enabled] at hb
  all_goals
    simp only [Direttore.next]
    grind [Direttore.Local.wakeUpsDue, Direttore.Local.openingsDue,
      Direttore.Local.beforeOpening, Direttore.Local.children, Direttore.Phase.Calendar]

theorem tokens_oper (site : Site O U) {w : World O U} {o : O} {b : Operatore.Act}
    (hb : Operatore.Enabled site o (w.opers o) w.sh b) :
    (w.next site (.oper o b)).sh.dayUpdateEvent + (w.next site (.oper o b)).onTheWay +
        w.sh.openPosteEvent =
      w.sh.dayUpdateEvent + w.onTheWay + (w.next site (.oper o b)).sh.openPosteEvent := by
  have hcount := crowd_oper Operatore.Phase.beforeEntry Utente.Phase.beforeEntry site w o b
  simp only [World.onTheWay]
  cases b <;> simp only [Operatore.Enabled] at hb <;>
    simp only [World.next, Operatore.next, hb] at hcount ⊢ <;>
    simp only [Operatore.Phase.beforeEntry] at hcount <;> grind

theorem tokens_user (site : Site O U) {w : World O U} {u : U} {b : Utente.Act}
    (hb : Utente.Enabled site u (w.users u) w.sh b) :
    (w.next site (.user u b)).sh.dayUpdateEvent + (w.next site (.user u b)).onTheWay +
        w.sh.openPosteEvent ≤
      w.sh.dayUpdateEvent + w.onTheWay + (w.next site (.user u b)).sh.openPosteEvent := by
  have hcount := crowd_user Operatore.Phase.beforeEntry Utente.Phase.beforeEntry site w u b
  simp only [World.onTheWay]
  cases b <;> simp only [Utente.Enabled] at hb <;>
    simp only [World.next, Utente.next, hb] at hcount ⊢ <;>
    simp only [Utente.Phase.beforeEntry] at hcount <;> grind

theorem DoorOpen.step {site : Site O U} (hopen : site.config.OpensDaily) {w : World O U}
    {a : Act O U} (h : DoorOpen site w) (ha : w.Enabled site a) :
    DoorOpen site (w.next site a) := by
  obtain ⟨hcal, hminute, htokens⟩ := h
  cases a with
  | oper o b =>
    have hstep := tokens_oper site ha.2
    have hdir : (w.next site (.oper o b)).dir = w.dir := rfl
    refine ⟨hcal, hminute, ?_⟩
    rw [hdir]
    omega
  | user u b =>
    have hstep := tokens_user site ha.2
    have hdir : (w.next site (.user u b)).dir = w.dir := rfl
    refine ⟨hcal, hminute, ?_⟩
    rw [hdir]
    omega
  | ticket b => exact ⟨hcal, hminute, by cases b <;> exact htokens⟩
  | director b =>
    have hcrowd : (w.next site (.director b)).onTheWay = w.onTheWay :=
      crowd_director site rfl ha.2.2
    refine ⟨calendar_step site rfl hcal ha.2.1, minute_step site hminute ha.2.1, ?_⟩
    rw [hcrowd]
    exact tokens_director site hopen hcal hminute ha.2.1 htokens
  | «section» => exact ⟨hcal, hminute, htokens⟩

omit [DecidableEq O] in
theorem doorOpen_init (site : Site O U) (hopen : site.config.OpensDaily) :
    DoorOpen site (World.init site) := by
  have hnobody : (World.init site).onTheWay = 0 := by
    have hmarks (p : Proc O U) : (World.init site).marks Operatore.Phase.beforeEntry
        Utente.Phase.beforeEntry p = false := by
      cases p with
      | direttore => rfl
      | operatore o => rfl
      | utente u =>
        by_cases hu : u ∈ site.initialUsers <;>
          simp [World.marks, World.init, hu, Utente.Phase.beforeEntry]
    simp [World.onTheWay, World.crowd, hmarks, overProcs]
  refine ⟨Or.inl ⟨rfl, rfl⟩, (fun n hn => by cases hn), ?_⟩
  rw [hnobody]
  have hzero : (0 : ℤ) ≤ site.config.workerShiftOpen * 60 := by
    have hpos := hopen.1
    omega
  simp [World.init, Shared.init, Direttore.Local.wakeUpsDue, Direttore.Local.openingsDue,
    Direttore.Local.beforeOpening, hzero]

theorem doorOpen_run (site : Site O U) (hopen : site.config.OpensDaily) (as : List (Act O U))
    (h : (poste site).Runs (World.init site) as) :
    DoorOpen site ((poste site).after (World.init site) as) :=
  (poste site).invariant (doorOpen_init site hopen) (fun _ _ hw ha => hw.step hopen ha) as h

/-- The director has posted the opening tokens of the day, and does not end it yet. -/
def Direttore.Local.HasOpened (site : Site O U) (l : Direttore.Local) : Prop :=
  l.beforeOpening site = false ∧ ∀ n, l.phase ≠ .opening (n + 1)

/-- From the opening to midnight, whatever the order of the steps, there are as many opening
tokens as processes that are on their way to the door or can still be woken. -/
theorem nobody_locked_out (site : Site O U) (hopen : site.config.OpensDaily)
    (as : List (Act O U)) (h : (poste site).Runs (World.init site) as)
    (hopened : ((poste site).after (World.init site) as).dir.HasOpened site) :
    ((poste site).after (World.init site) as).sh.dayUpdateEvent +
        ((poste site).after (World.init site) as).onTheWay ≤
      ((poste site).after (World.init site) as).sh.openPosteEvent := by
  have htokens := (doorOpen_run site hopen as h).tokens
  obtain ⟨hafter, hposted⟩ := hopened
  have hdue : ((poste site).after (World.init site) as).dir.openingsDue site = 0 := by
    unfold Direttore.Local.openingsDue
    split
    case h_1 n hphase =>
      cases n with
      | zero => rfl
      | succ n => exact absurd hphase (hposted n)
    case h_2 => simp [hafter]
  omega

/-- The office has opened, and everybody is still at the door. -/
def officeAtDoor : List (Act (Fin 2) (Fin 2)) :=
  officeNight ++ (officeMorning ++ (quietMinutes 1 479 ++ opening 480 4))

theorem officeAtDoor_runs : (poste office).Runs (World.init office) officeAtDoor := by
  apply officeWait_runs.of_prefix
  simp only [officeAtDoor, officeWait, officeOpening, List.append_assoc,
    List.prefix_append_right_inj, List.prefix_append]

theorem officeAtDoor_after : (poste office).after (World.init office) officeAtDoor =
    (poste office).after officeAtOpening (opening 480 4) := by
  rw [officeAtDoor, ← List.append_assoc, GuardedSystem.after_append,
    after_quiet office_idle_morning 478 office_quiet_morning]
  rfl

theorem nobody_locked_out_office :
    ((poste office).after (World.init office) officeAtDoor).sh.dayUpdateEvent +
        ((poste office).after (World.init office) officeAtDoor).onTheWay ≤
      ((poste office).after (World.init office) officeAtDoor).sh.openPosteEvent := by
  refine nobody_locked_out office ⟨by decide, by decide⟩ officeAtDoor officeAtDoor_runs ?_
  rw [officeAtDoor_after]
  exact ⟨by decide, nofun⟩

end PosteItaliane
