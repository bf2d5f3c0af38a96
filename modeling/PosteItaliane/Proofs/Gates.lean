import PosteItaliane.Framework.Broadcast
import PosteItaliane.Proofs.Clock

/-!
# Opening and closing

The director posts `open_poste_event` and `close_poste_event` once a day for everybody, and
a token that nobody takes stays for the next day. Both semaphores are a gate: who comes to
it before the tick of its day and finds it at zero passes it after that tick.
-/

namespace PosteItaliane

open Framework

variable {O U : Type} [Fintype O] [Fintype U]

/-- Blocked in `sem_wait(open_poste_event)`. -/
def Operatore.Phase.awaitsOpening : Operatore.Phase → Bool
  | .awaitOpen => true
  | _ => false

/-- Blocked in `sem_wait(open_poste_event)`. -/
def Utente.Phase.awaitsOpening : Utente.Phase → Bool
  | .awaitOpen _ => true
  | _ => false

/-- In the part of `work_loop` that calls `did_poste_close`. -/
def Operatore.Phase.checksClosing : Operatore.Phase → Bool
  | .seek | .station | .stationTimeout | .stationFind | .stationRepost | .takeFound _ => true
  | .checkClose _ | .receive _ | .request _ _ | .serve _ _ | .reply _ _ _ | .pauseDraw _ => true
  | _ => false

namespace Tick

/-- The phases of an operator at the gate of the tick. -/
def operatorAt : Tick → Operatore.Phase → Bool
  | opening => Operatore.Phase.awaitsOpening
  | closing => Operatore.Phase.checksClosing

/-- The phases of a user at the gate of the tick. -/
def userAt : Tick → Utente.Phase → Bool
  | opening => Utente.Phase.awaitsOpening
  | closing => fun _ => false

def gate (t : Tick) (s : World O U × Diary O U) : Gate (Proc O U) where
  day := s.2.day
  ticked := t.days s.2
  tokens := t.tokens s.1.sh
  cycle := s.2.cycle
  watch := s.1.marks t.operatorAt t.userAt

/-- A process comes to the gate. -/
def comes : Tick → Act O U → Option (Proc O U)
  | opening, .oper o .waitOpen => some (.operatore o)
  | opening, .user u (.plan _ _ _ _) => some (.utente u)
  | closing, .oper o .canWork => some (.operatore o)
  | _, _ => none

/-- A process takes a token and passes the gate. -/
def passes : Tick → Act O U → Option (Proc O U)
  | opening, .oper o .enter => some (.operatore o)
  | opening, .user u (.enter _) => some (.utente u)
  | closing, .oper o .closedAtStation => some (.operatore o)
  | closing, .oper o (.closed _) => some (.operatore o)
  | _, _ => none

def event (t : Tick) : Act O U → Option (Gate.Event (Proc O U))
  | .director .startNewDay => some .newDay
  | .oper o .wake => some (.wake (.operatore o))
  | .user u .wake => some (.wake (.utente u))
  | .director .openPoste =>
    match t with
    | opening => some .tick
    | closing => none
  | .director .closePoste =>
    match t with
    | opening => none
    | closing => some .tick
  | .director (.postOpen _) =>
    match t with
    | opening => some .post
    | closing => none
  | .director (.postClose _) =>
    match t with
    | opening => none
    | closing => some .post
  | .oper o (.pause _ _) =>
    match t with
    | opening => none
    | closing => some (.leave (.operatore o))
  | a => ((t.comes a).map .begin).or ((t.passes a).map .take)

end Tick

omit [Fintype O] [Fintype U] in
theorem gate_eq {t : Tick} {s : World O U × Diary O U} {g : Gate (Proc O U)}
    (hday : s.2.day = g.day) (hticked : t.days s.2 = g.ticked)
    (htokens : t.tokens s.1.sh = g.tokens) (hcycle : s.2.cycle = g.cycle)
    (hwatch : s.1.marks t.operatorAt t.userAt = g.watch) : t.gate s = g := by
  simp [Tick.gate, hday, hticked, htokens, hcycle, hwatch]

variable [DecidableEq O] [DecidableEq U]

/-- A step does to the gate what its event says. -/
def Tick.Follows (t : Tick) (site : Site O U) (s : World O U × Diary O U) (a : Act O U) : Prop :=
  match t.event a with
  | none => t.gate ((posteDiary site).next s a) = t.gate s
  | some e => (Gate.system (t.Active site.config)).Enabled (t.gate s) e ∧
      t.gate ((posteDiary site).next s a) =
        (Gate.system (t.Active site.config)).next (t.gate s) e

theorem follows_director (site : Site O U) {t : Tick} {w : World O U} {D : Diary O U}
    {b : Direttore.Act U} (hkept : t.Kept site.config w.dir D)
    (ha : w.Enabled site (.director b)) : t.Follows site (w, D) (.director b) := by
  obtain ⟨-, he, hstart⟩ := ha
  have hwatch : (w.next site (.director b)).marks t.operatorAt t.userAt =
      w.marks t.operatorAt t.userAt := marks_director site (by cases t <;> rfl) hstart
  have hposting := posting_step site hkept he
  cases b
  case startNewDay =>
    refine ⟨fun hactive => ?_, ?_⟩
    · have hphase : w.dir.phase = .explodeCheck := he.1
      have hclock := hkept.clock
      rw [hphase] at hclock
      rcases hclock with ⟨hzero, -⟩ | ⟨hday, hminute⟩
      · exact Or.inl hzero
      · refine Or.inr (hkept.due hactive hday ?_)
        rw [hphase, hminute]
        exact hactive.2
    · cases t <;> exact gate_eq rfl rfl rfl rfl hwatch
  case openPoste =>
    cases t with
    | opening => exact ⟨(hposting rfl).1, gate_eq rfl rfl rfl rfl hwatch⟩
    | closing => exact gate_eq rfl rfl rfl rfl hwatch
  case closePoste =>
    cases t with
    | opening => exact gate_eq rfl rfl rfl rfl hwatch
    | closing => exact ⟨(hposting rfl).1, gate_eq rfl rfl rfl rfl hwatch⟩
  case postOpen n =>
    cases t with
    | opening => exact ⟨hposting rfl, gate_eq rfl rfl rfl rfl hwatch⟩
    | closing => exact gate_eq rfl rfl rfl rfl hwatch
  case postClose n =>
    cases t with
    | opening => exact gate_eq rfl rfl rfl rfl hwatch
    | closing => exact ⟨hposting rfl, gate_eq rfl rfl rfl rfl hwatch⟩
  all_goals
    cases t <;> exact gate_eq rfl rfl rfl rfl hwatch

omit [DecidableEq O] [DecidableEq U] in
theorem operatorAt_keep (site : Site O U) {t : Tick} {o : O} {l : Operatore.Local}
    {sh : Shared O U} {b : Operatore.Act} (he : Operatore.Enabled site o l sh b)
    (hb : t.event (.oper o b : Act O U) = none) :
    t.operatorAt (Operatore.next site o l sh b).1.phase = t.operatorAt l.phase := by
  cases t
  · cases b
    case enter => cases hb
    case waitOpen => cases hb
    all_goals
      simp only [Operatore.Enabled] at he
      simp only [Operatore.next, Tick.operatorAt]
      grind [Operatore.Phase.awaitsOpening]
  · cases b
    case canWork => cases hb
    case closedAtStation => cases hb
    case closed k => cases hb
    case pause k r => cases hb
    all_goals
      simp only [Operatore.Enabled] at he
      simp only [Operatore.next, Tick.operatorAt]
      grind [Operatore.Phase.checksClosing]

theorem gate_oper_keep (site : Site O U) {t : Tick} {w : World O U} {D : Diary O U} {o : O}
    {b : Operatore.Act} (he : Operatore.Enabled site o (w.opers o) w.sh b)
    (hb : t.event (.oper o b : Act O U) = none) :
    t.gate ((posteDiary site).next (w, D) (.oper o b)) = t.gate (w, D) := by
  have hwatch : (w.next site (.oper o b)).marks t.operatorAt t.userAt =
      w.marks t.operatorAt t.userAt := marks_oper_keep site (operatorAt_keep site he hb)
  cases t <;> cases b <;> first | exact gate_eq rfl rfl rfl rfl hwatch | cases hb

theorem follows_oper (site : Site O U) {t : Tick} {w : World O U} {D : Diary O U} {o : O}
    {b : Operatore.Act} (hwoken : Woken (w, D)) (ha : w.Enabled site (.oper o b)) :
    t.Follows site (w, D) (.oper o b) := by
  obtain ⟨-, he⟩ := ha
  have hcycle (hphase : (w.opers o).phase.inCycle = true) : 1 ≤ D.cycle (.operatore o) :=
    hwoken.cycle (.operatore o) hphase
  have hmoves : (w.next site (.oper o b)).marks t.operatorAt t.userAt =
      Function.update (w.marks t.operatorAt t.userAt) (.operatore o)
        (t.operatorAt (Operatore.next site o (w.opers o) w.sh b).1.phase) := marks_oper site w o b
  cases b
  case wake =>
    have hphase : (w.opers o).phase = .awaitDay := he.1
    have hat : t.operatorAt (w.opers o).phase = false := by
      rw [hphase]
      cases t <;> rfl
    have hmorning : t.operatorAt .morning = t.operatorAt (w.opers o).phase := by
      rw [hat]
      cases t <;> rfl
    refine ⟨hat, ?_⟩
    cases t <;> exact gate_eq rfl rfl rfl (D.cycle_wake _) (marks_oper_keep site hmorning)
  case waitOpen =>
    have hphase : (w.opers o).phase = .morning := he
    cases t with
    | opening => exact ⟨hcycle (by rw [hphase]; rfl), gate_eq rfl rfl rfl rfl hmoves⟩
    | closing => exact gate_oper_keep site he rfl
  case enter =>
    have hphase : (w.opers o).phase = .awaitOpen := he.1
    cases t with
    | opening =>
      have hat : Operatore.Phase.awaitsOpening (w.opers o).phase = true := by rw [hphase]; rfl
      exact ⟨⟨hat, he.2⟩, gate_eq rfl rfl rfl rfl hmoves⟩
    | closing => exact gate_oper_keep site he rfl
  case canWork =>
    have hphase : (w.opers o).phase = .entered := he.1
    cases t with
    | opening => exact gate_oper_keep site he rfl
    | closing => exact ⟨hcycle (by rw [hphase]; rfl), gate_eq rfl rfl rfl rfl hmoves⟩
  case closedAtStation =>
    have hphase : (w.opers o).phase = .stationTimeout := he.1
    cases t with
    | opening => exact gate_oper_keep site he rfl
    | closing =>
      have hat : Operatore.Phase.checksClosing (w.opers o).phase = true := by rw [hphase]; rfl
      exact ⟨⟨hat, he.2⟩, gate_eq rfl rfl rfl rfl hmoves⟩
  case closed k =>
    have hphase : (w.opers o).phase = .checkClose k := he.1
    cases t with
    | opening => exact gate_oper_keep site he rfl
    | closing =>
      have hat : Operatore.Phase.checksClosing (w.opers o).phase = true := by rw [hphase]; rfl
      exact ⟨⟨hat, he.2⟩, gate_eq rfl rfl rfl rfl hmoves⟩
  case pause k r =>
    cases t with
    | opening => exact gate_oper_keep site he rfl
    | closing => exact ⟨trivial, gate_eq rfl rfl rfl rfl hmoves⟩
  all_goals cases t <;> exact gate_oper_keep site he rfl

omit [DecidableEq O] [DecidableEq U] in
theorem userAt_keep (site : Site O U) {t : Tick} {u : U} {l : Utente.Local} {sh : Shared O U}
    {b : Utente.Act} (he : Utente.Enabled site u l sh b)
    (hb : t.event (.user u b : Act O U) = none) :
    t.userAt (Utente.next site u l sh b).1.phase = t.userAt l.phase := by
  cases t with
  | opening =>
    cases b
    case plan => cases hb
    case enter => cases hb
    case sleepOn => rfl
    all_goals
      simp only [Utente.Enabled] at he
      simp only [Utente.next, Tick.userAt]
      grind [Utente.Phase.awaitsOpening]
  | closing => rfl

theorem gate_user_keep (site : Site O U) {t : Tick} {w : World O U} {D : Diary O U} {u : U}
    {b : Utente.Act} (he : Utente.Enabled site u (w.users u) w.sh b)
    (hb : t.event (.user u b : Act O U) = none) :
    t.gate ((posteDiary site).next (w, D) (.user u b)) = t.gate (w, D) := by
  have hwatch : (w.next site (.user u b)).marks t.operatorAt t.userAt =
      w.marks t.operatorAt t.userAt := marks_user_keep site (userAt_keep site he hb)
  cases t <;> cases b <;> first | exact gate_eq rfl rfl rfl rfl hwatch | cases hb

theorem follows_user (site : Site O U) {t : Tick} {w : World O U} {D : Diary O U} {u : U}
    {b : Utente.Act} (hwoken : Woken (w, D)) (ha : w.Enabled site (.user u b)) :
    t.Follows site (w, D) (.user u b) := by
  obtain ⟨-, he⟩ := ha
  have hcycle (hphase : (w.users u).phase.inCycle = true) : 1 ≤ D.cycle (.utente u) :=
    hwoken.cycle (.utente u) hphase
  have hmoves : (w.next site (.user u b)).marks t.operatorAt t.userAt =
      Function.update (w.marks t.operatorAt t.userAt) (.utente u)
        (t.userAt (Utente.next site u (w.users u) w.sh b).1.phase) := marks_user site w u b
  cases b
  case wake =>
    have hphase : (w.users u).phase = .awaitDay := he.1
    have hat : t.userAt (w.users u).phase = false := by
      rw [hphase]
      cases t <;> rfl
    have hmorning : t.userAt .morning = t.userAt (w.users u).phase := by
      rw [hat]
      cases t <;> rfl
    refine ⟨hat, ?_⟩
    cases t <;> exact gate_eq rfl rfl rfl (D.cycle_wake _) (marks_user_keep site hmorning)
  case plan rGo rNum rs rWalk =>
    have hphase : (w.users u).phase = .morning := he.1
    cases t with
    | opening => exact ⟨hcycle (by rw [hphase]; rfl), gate_eq rfl rfl rfl rfl hmoves⟩
    | closing => exact gate_user_keep site he rfl
  case enter walkIn =>
    have hphase : (w.users u).phase = .awaitOpen walkIn := he.1
    cases t with
    | opening =>
      have hat : Utente.Phase.awaitsOpening (w.users u).phase = true := by rw [hphase]; rfl
      exact ⟨⟨hat, he.2⟩, gate_eq rfl rfl rfl rfl hmoves⟩
    | closing => exact gate_user_keep site he rfl
  all_goals cases t <;> exact gate_user_keep site he rfl

/-- The gate follows the state, the diary has every tick that was due, and who is in a cycle
was woken for it. -/
structure Tick.GateOf (t : Tick) (site : Site O U) (s : World O U × Diary O U)
    (g : Gate (Proc O U)) : Prop where
  gate : t.gate s = g
  kept : t.Kept site.config s.1.dir s.2
  woken : Woken s

theorem kept_next (site : Site O U) {t : Tick} {w : World O U} {D : Diary O U} {a : Act O U}
    (h : t.Kept site.config w.dir D) (ha : w.Enabled site a) :
    t.Kept site.config (w.next site a).dir (D.record a) := by
  have hsame {D' : Diary O U} (hday : D'.day = D.day) (hdays : t.days D' = t.days D) :
      t.Kept site.config w.dir D' := by
    obtain ⟨hclock, hdue, hposting⟩ := h
    refine ⟨?_, ?_, ?_⟩
    · rw [hday]
      exact hclock
    · rw [hday, hdays]
      exact hdue
    · rw [hday, hdays]
      exact hposting
  cases a with
  | oper o b => cases b <;> first | exact h | exact hsame rfl (by cases t <;> rfl)
  | user u b => cases b <;> first | exact h | exact hsame rfl (by cases t <;> rfl)
  | ticket b => exact h
  | director b => exact h.step site ha.2.1
  | «section» => exact h

theorem posteDiary_refines_gate (site : Site O U) (t : Tick) :
    (posteDiary site).Refines (Gate.system (t.Active site.config)) (t.GateOf site) t.event := by
  rintro ⟨w, D⟩ g a ⟨rfl, hkept, hwoken⟩ ha
  have hkept' := kept_next site hkept ha
  have hwoken' := hwoken.step site hkept.clock ha
  have hfollows : t.Follows site (w, D) a := by
    cases a with
    | oper o b => exact follows_oper site hwoken ha
    | user u b => exact follows_user site hwoken ha
    | ticket b => cases t <;> cases b <;> exact gate_eq rfl rfl rfl rfl rfl
    | director b => exact follows_director site hkept ha
    | «section» => cases t <;> exact gate_eq rfl rfl rfl rfl rfl
  rw [Tick.Follows] at hfollows
  cases hev : t.event a with
  | none =>
    rw [hev] at hfollows
    exact ⟨hfollows, hkept', hwoken'⟩
  | some e =>
    rw [hev] at hfollows
    exact ⟨hfollows.1, hfollows.2, hkept', hwoken'⟩

/-- Who comes before the tick of its day finds no token. -/
def Tick.Sealed (t : Tick) (s : World O U × Diary O U) (a : Act O U) : Prop :=
  ∀ p ∈ t.comes a, s.2.cycle p ∉ t.days s.2 → t.tokens s.1.sh = 0

instance (t : Tick) (s : World O U × Diary O U) (a : Act O U) : Decidable (t.Sealed s a) :=
  inferInstanceAs (Decidable (∀ p ∈ t.comes a, _))

omit [Fintype O] [Fintype U] [DecidableEq O] [DecidableEq U] in
theorem comes_of_event {t : Tick} {a : Act O U} {p : Proc O U} (h : t.event a = some (.begin p)) :
    t.comes a = some p := by
  cases a with
  | oper o b => cases t <;> cases b <;> cases h <;> rfl
  | user u b =>
    cases t <;> cases b <;> cases h
    rfl
  | ticket b => cases t <;> cases h
  | director b => cases t <;> cases b <;> cases h
  | «section» => cases t <;> cases h

omit [Fintype O] [Fintype U] [DecidableEq O] [DecidableEq U] in
theorem event_of_passes {t : Tick} {a : Act O U} {p : Proc O U} (h : t.passes a = some p) :
    t.event a = some (.take p) := by
  cases a with
  | oper o b => cases t <;> cases b <;> cases h <;> rfl
  | user u b =>
    cases t <;> cases b <;> cases h
    rfl
  | ticket b => cases t <;> cases h
  | director b => cases t <;> cases b <;> cases h
  | «section» => cases t <;> cases h

omit [DecidableEq O] [DecidableEq U] in
theorem gate_sealed {site : Site O U} {t : Tick} {s : World O U × Diary O U}
    {g : Gate (Proc O U)} {a : Act O U} {e : Gate.Event (Proc O U)} (hR : t.GateOf site s g)
    (ha : t.Sealed s a) (he : t.event a = some e) : Gate.Sealed g e := by
  obtain ⟨rfl, -, -⟩ := hR
  cases e with
  | begin p => exact ha p (comes_of_event he)
  | _ => trivial

omit [DecidableEq O] in
theorem gateOf_init (site : Site O U) (t : Tick) :
    t.GateOf site (World.init site, Diary.start) (t.gate (World.init site, Diary.start)) where
  gate := rfl
  kept := by
    refine ⟨Or.inl ⟨rfl, rfl⟩, fun _ hday _ => ?_, fun hposts => ?_⟩
    · cases hday
    · cases t <;> cases hposts
  woken := by
    refine ⟨fun hpos => ?_, fun p hp => ?_⟩
    · cases hpos
    · cases p with
      | direttore => cases hp
      | operatore o => cases hp
      | utente u =>
        by_cases hu : u ∈ site.initialUsers <;>
          simp [World.marks, World.init, hu, Utente.Phase.inCycle] at hp

omit [DecidableEq O] in
theorem gate_init (site : Site O U) (t : Tick) :
    (t.gate (World.init site, (Diary.start : Diary O U))).Kept (t.Active site.config) := by
  refine ⟨fun _ d _ hd => ?_, fun p => Nat.le_refl _, fun p hp => ?_⟩
  · cases hd
  · cases t <;> cases p
    case opening.utente u =>
      by_cases hu : u ∈ site.initialUsers <;>
        simp [Tick.gate, Tick.userAt, World.marks, World.init, hu,
          Utente.Phase.awaitsOpening] at hp
    all_goals cases hp

/-- As long as everybody who comes before the tick of its day finds no token, who passes does
so after that tick. -/
theorem Tick.passes_after (site : Site O U) (t : Tick) {as : List (Act O U)} {a : Act O U}
    (h : ((posteDiary site).restrict t.Sealed).Runs (World.init site, Diary.start) (as ++ [a]))
    {p : Proc O U} (hp : t.passes a = some p) : (Diary.of as).cycle p ∈ t.days (Diary.of as) := by
  have href := (posteDiary_refines_gate site t).restrict (C := t.Sealed) (D := Gate.Sealed)
    (fun s g a e hR _ ha he => gate_sealed hR ha he)
  obtain ⟨hruns, ha⟩ := (GuardedSystem.runs_snoc _ _ as a).mp h
  obtain ⟨hgate, hR⟩ := href.run (gateOf_init site t) as hruns
  have hkept := Gate.kept_run (gate_init site t) _ hgate
  rw [GuardedSystem.restrict_after] at ha hR
  have hstep := posteDiary_refines_gate site t _ _ a hR ha.1
  rw [event_of_passes hp] at hstep
  have hticked := hkept.ticked_of_take hstep.1
  rw [posteDiary_after] at hR
  rw [← GuardedSystem.restrict_after (C := Gate.Sealed), ← hR.gate] at hticked
  exact hticked

/-- An operator learns that the office has closed after the closing of its day, as long as
operators that start to work before it find `close_poste_event` at zero. -/
theorem closed_on_its_day (site : Site O U) (as : List (Act O U)) (a : Act O U)
    (h : ((posteDiary site).restrict Tick.closing.Sealed).Runs (World.init site, Diary.start)
      (as ++ [a])) (p : Proc O U) (hp : Tick.closing.passes a = some p) :
    (Diary.of as).cycle p ∈ (Diary.of as).closed :=
  Tick.closing.passes_after site h hp

/-- A process enters the office after the opening of its day, as long as processes that come
before it find `open_poste_event` at zero. -/
theorem entered_on_its_day (site : Site O U) (as : List (Act O U)) (a : Act O U)
    (h : ((posteDiary site).restrict Tick.opening.Sealed).Runs (World.init site, Diary.start)
      (as ++ [a])) (p : Proc O U) (hp : Tick.opening.passes a = some p) :
    (Diary.of as).cycle p ∈ (Diary.of as).opened :=
  Tick.opening.passes_after site h hp

/-- The seat is for service 1, and the user stays at home. -/
def idleMorning : List (Act (Fin 1) (Fin 1)) :=
  [.oper 0 .waitDay, .user 0 .waitDay] ++ midnight 1 ++ [.director (.resetSeats fun _ => 1)] ++
    wakeUps 2 ++ [.oper 0 .wake, .oper 0 .waitOpen, .user 0 .wake, .user 0 (.stayHome 0),
      .user 0 .waitDay]

/-- The operator has no seat and goes home. -/
def idleOpening : List (Act (Fin 1) (Fin 1)) :=
  opening 480 2 ++ [.oper 0 .enter, .oper 0 .cannotWork, .oper 0 .waitDay]

/-- The second day begins, with one token left of each kind. -/
def secondMorning : List (Act (Fin 1) (Fin 1)) :=
  midnight 2 ++ [.director (.resetSeats fun _ => 0)] ++ wakeUps 2

def idleDay : List (Act (Fin 1) (Fin 1)) :=
  idleMorning ++ (quietMinutes 1 479 ++ (idleOpening ++ (quietMinutes 481 719 ++
    (closing 1200 1 ++ (quietMinutes 1201 239 ++ secondMorning)))))

/-- The operator sits down at the counter. -/
def sitDown : List (Act (Fin 1) (Fin 1)) :=
  opening 480 2 ++ [.oper 0 .enter, .oper 0 .canWork, .oper 0 (.takeFree 0)]

theorem oneCounter_quiet {m : ℤ} (h0 : 0 < m) (h1440 : m < 1440) (h480 : m ≠ 480)
    (h1200 : m ≠ 1200) : Quiet oneCounter m :=
  quiet_default rfl rfl h0 h1440 h480 h1200

theorem oneCounter_quiet_morning : ∀ i : ℤ, 1 ≤ i → i ≤ 1 + (478 : ℕ) → Quiet oneCounter i :=
  fun i h1 h2 => oneCounter_quiet (by omega) (by omega) (by omega) (by omega)

theorem oneCounter_quiet_afternoon :
    ∀ i : ℤ, 481 ≤ i → i ≤ 481 + (718 : ℕ) → Quiet oneCounter i :=
  fun i h1 h2 => oneCounter_quiet (by omega) (by omega) (by omega) (by omega)

theorem oneCounter_quiet_evening :
    ∀ i : ℤ, 1201 ≤ i → i ≤ 1201 + (238 : ℕ) → Quiet oneCounter i :=
  fun i h1 h2 => oneCounter_quiet (by omega) (by omega) (by omega) (by omega)

def idleAtOpening : World (Fin 1) (Fin 1) :=
  ((poste oneCounter).after (World.init oneCounter) idleMorning).atMinute 480

def idleAtClosing : World (Fin 1) (Fin 1) :=
  ((poste oneCounter).after idleAtOpening idleOpening).atMinute 1200

def idleAtMidnight : World (Fin 1) (Fin 1) :=
  ((poste oneCounter).after idleAtClosing (closing 1200 1)).atMinute 1440

theorem idle_morning :
    Idle oneCounter ((poste oneCounter).after (World.init oneCounter) idleMorning) 1 :=
  ⟨by decide, by decide, by decide, by decide⟩

theorem idle_afternoon :
    Idle oneCounter ((poste oneCounter).after idleAtOpening idleOpening) 481 :=
  ⟨by decide, by decide, by decide, by decide⟩

theorem idle_evening :
    Idle oneCounter ((poste oneCounter).after idleAtClosing (closing 1200 1)) 1201 :=
  ⟨by decide, by decide, by decide, by decide⟩

/-- The first day until midnight, and what comes then. -/
def idleUntilMidnight (as : List (Act (Fin 1) (Fin 1))) : List (Act (Fin 1) (Fin 1)) :=
  idleMorning ++ (quietMinutes 1 479 ++ (idleOpening ++ (quietMinutes 481 719 ++
    (closing 1200 1 ++ (quietMinutes 1201 239 ++ as)))))

theorem idleUntilMidnight_after (as : List (Act (Fin 1) (Fin 1))) :
    (poste oneCounter).after (World.init oneCounter) (idleUntilMidnight as) =
      (poste oneCounter).after idleAtMidnight as := by
  rw [idleUntilMidnight, GuardedSystem.after_append,
    after_quiet idle_morning 478 oneCounter_quiet_morning, GuardedSystem.after_append]
  have hevening : (poste oneCounter).after idleAtClosing
      (closing 1200 1 ++ (quietMinutes 1201 239 ++ as)) =
        (poste oneCounter).after idleAtMidnight as := by
    rw [GuardedSystem.after_append]
    exact after_quiet idle_evening 238 oneCounter_quiet_evening _
  exact (after_quiet idle_afternoon 718 oneCounter_quiet_afternoon _).trans hevening

theorem idleUntilMidnight_runs {as : List (Act (Fin 1) (Fin 1))}
    (has : (poste oneCounter).Runs idleAtMidnight as) :
    (poste oneCounter).Runs (World.init oneCounter) (idleUntilMidnight as) := by
  rw [idleUntilMidnight, GuardedSystem.runs_append,
    runs_quiet idle_morning 478 oneCounter_quiet_morning, GuardedSystem.runs_append]
  refine ⟨by decide, by decide, ?_⟩
  apply (runs_quiet idle_afternoon 718 oneCounter_quiet_afternoon _).mpr
  rw [GuardedSystem.runs_append]
  refine ⟨by decide, ?_⟩
  exact (runs_quiet idle_evening 238 oneCounter_quiet_evening _).mpr has

theorem idleDay_after : (poste oneCounter).after (World.init oneCounter) idleDay =
    (poste oneCounter).after idleAtMidnight secondMorning :=
  idleUntilMidnight_after secondMorning

theorem idleDay_runs : (poste oneCounter).Runs (World.init oneCounter) idleDay :=
  idleUntilMidnight_runs (by decide)

theorem sealed_quietMinute (t : Tick) (m : ℤ) : ∀ a ∈ quietMinute m,
    ∀ s : World (Fin 1) (Fin 1) × Diary (Fin 1) (Fin 1), t.Sealed s a := by
  cases t <;> simp [quietMinute, Tick.Sealed, Tick.comes]

theorem counter_idle_morning :
    Idle oneCounter ((poste oneCounter).after (World.init oneCounter) counterMorning) 1 :=
  ⟨by decide, by decide, by decide, by decide⟩

/-- One day at the counter until the closing. -/
def counterDay : List (Act (Fin 1) (Fin 1)) :=
  counterMorning ++ (quietMinutes 1 479 ++ (sitDown ++ (quietMinutes 481 719 ++ closing 1200 1)))

theorem closed_on_its_day_counter :
    (Diary.of counterDay).cycle (.operatore 0) ∈ (Diary.of counterDay).closed := by
  refine closed_on_its_day oneCounter counterDay (.oper 0 (.closed 0)) ?_ (.operatore 0) rfl
  simp only [counterDay, List.append_assoc]
  rw [GuardedSystem.runs_append, GuardedSystem.restrict_after, posteDiary_after,
    runs_quiet_diary (sealed_quietMinute _) counter_idle_morning 478 oneCounter_quiet_morning,
    GuardedSystem.runs_append, GuardedSystem.restrict_after, posteDiary_after]
  refine ⟨by decide, by decide, ?_⟩
  refine (runs_quiet_diary (sealed_quietMinute _) ?_ 718 oneCounter_quiet_afternoon _).mpr ?_
  · exact ⟨by decide, by decide, by decide, by decide⟩
  · decide

/-- The operator sits down on the second day and finds the token of the first. -/
theorem closed_too_early : ¬ ∀ (as : List (Act (Fin 1) (Fin 1))) (a : Act (Fin 1) (Fin 1)),
    (poste oneCounter).Runs (World.init oneCounter) (as ++ [a]) →
    ∀ p, Tick.closing.passes a = some p → (Diary.of as).cycle p ∈ (Diary.of as).closed := by
  intro hclosed
  have hmem := hclosed (idleDay ++ ([Act.oper 0 .wake, .oper 0 .waitOpen] ++
    (quietMinutes 1 479 ++ sitDown))) (.oper 0 (.closed 0)) ?_ (.operatore 0) rfl
  · simp only [Diary.of, idleDay, List.foldl_append, Diary.foldl_quietMinutes] at hmem
    exact absurd hmem (by decide)
  · rw [List.append_assoc, GuardedSystem.runs_append, idleDay_after, List.append_assoc,
      List.append_assoc, GuardedSystem.runs_append]
    refine ⟨idleDay_runs, by decide, ?_⟩
    rw [runs_quiet (m := 1) ⟨by decide, by decide, by decide, by decide⟩ 478
      oneCounter_quiet_morning]
    decide

/-- The same day until the opening. -/
def counterOpening : List (Act (Fin 1) (Fin 1)) :=
  counterMorning ++ (quietMinutes 1 479 ++ opening 480 2)

theorem entered_on_its_day_counter :
    (Diary.of counterOpening).cycle (.operatore 0) ∈ (Diary.of counterOpening).opened := by
  refine entered_on_its_day oneCounter counterOpening (.oper 0 .enter) ?_ (.operatore 0) rfl
  simp only [counterOpening, List.append_assoc]
  rw [GuardedSystem.runs_append, GuardedSystem.restrict_after, posteDiary_after,
    runs_quiet_diary (sealed_quietMinute _) counter_idle_morning 478 oneCounter_quiet_morning]
  exact ⟨by decide, by decide⟩

/-- The user enters in the first minute of the second day, with the token of the first. -/
theorem entered_too_early : ¬ ∀ (as : List (Act (Fin 1) (Fin 1))) (a : Act (Fin 1) (Fin 1)),
    (poste oneCounter).Runs (World.init oneCounter) (as ++ [a]) →
    ∀ p, Tick.opening.passes a = some p → (Diary.of as).cycle p ∈ (Diary.of as).opened := by
  intro hopened
  have hmem := hopened (idleDay ++ [Act.user 0 .wake, .user 0 (.plan 50 0 [0] 0)])
    (.user 0 (.enter 481)) ?_ (.utente 0) rfl
  · simp only [Diary.of, idleDay, List.foldl_append, Diary.foldl_quietMinutes] at hmem
    exact absurd hmem (by decide)
  · rw [List.append_assoc, GuardedSystem.runs_append, idleDay_after]
    exact ⟨idleDay_runs, by decide⟩

end PosteItaliane
