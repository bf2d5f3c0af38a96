import PosteItaliane.Proofs.Diary

/-!
# The director's clock

On every day the director starts, it comes past the opening and the closing minute once,
unless they lie outside of the day. So when a day ends its ticks have come, and a process
that lives a day lives one the director has started.
-/

namespace PosteItaliane

open Framework

inductive Tick where
  | opening
  | closing

/-- The minute of the director and the day it has started last. -/
def Direttore.Phase.OnClock (day : ℕ) (m : ℤ) : Direttore.Phase → Prop
  | .loop | .openCheck | .opening _ | .closeCheck | .closing _ | .midnightCheck =>
    day = 0 ∧ m = 0 ∨ 1 ≤ day ∧ 1 ≤ m ∧ m ≤ 1440
  | .explodeCheck => day = 0 ∧ m = 0 ∨ 1 ≤ day ∧ m = 1440
  | .showStats | .resetStats | .resetSeats | .waking _ => 1 ≤ day
  | .newUsers | .starting _ | .clock => 1 ≤ day ∧ 0 ≤ m ∧ m ≤ 1439
  | .over | .exited => True

namespace Tick

/-- The minute of the tick. -/
def minute (config : PosteConfig) : Tick → ℤ
  | opening => config.workerShiftOpen * 60
  | closing => config.workerShiftClose * 60

/-- The director comes past the minute of the tick, and it is not minute 0. -/
def Active (t : Tick) (config : PosteConfig) : Prop :=
  0 < t.minute config ∧ t.minute config ≤ 1440

/-- The director is posting the tokens of the tick. -/
def posts : Tick → Direttore.Phase → Bool
  | opening, .opening _ => true
  | closing, .closing _ => true
  | _, _ => false

/-- In minute `m` the tick of the current day has come. -/
def Due (t : Tick) (config : PosteConfig) (m : ℤ) : Direttore.Phase → Prop
  | .loop | .openCheck => t.minute config < m
  | .opening _ | .closeCheck =>
    match t with
    | opening => t.minute config ≤ m
    | closing => t.minute config < m
  | .closing _ | .midnightCheck | .explodeCheck => t.minute config ≤ m
  | .newUsers | .starting _ | .clock => t.minute config ≤ m
  | _ => False

variable {O U : Type}

def tokens (sh : Shared O U) : Tick → ℕ
  | opening => sh.openPosteEvent
  | closing => sh.closePosteEvent

/-- The days on which the tick has come. -/
def days (D : Diary O U) : Tick → List ℕ
  | opening => D.opened
  | closing => D.closed

/-- The diary has the tick of every day for which it was due. -/
structure Kept (t : Tick) (config : PosteConfig) (l : Direttore.Local) (D : Diary O U) :
    Prop where
  clock : l.phase.OnClock D.day l.minutesElapsed
  due : t.Active config → 1 ≤ D.day → t.Due config l.minutesElapsed l.phase → D.day ∈ t.days D
  posting : t.posts l.phase = true → t.Active config ∧ D.day ∈ t.days D

end Tick

variable {O U : Type} [Fintype O] [Fintype U] [DecidableEq O] [DecidableEq U]

theorem clock_step (site : Site O U) {l : Direttore.Local} {sh : Shared O U} {D : Diary O U}
    {b : Direttore.Act U} (h : l.phase.OnClock D.day l.minutesElapsed)
    (hb : Direttore.Enabled site l sh b) :
    (Direttore.next site l sh b).1.phase.OnClock (D.record (.director b)).day
      (Direttore.next site l sh b).1.minutesElapsed := by
  obtain ⟨phase, m, days, n, printed⟩ := l
  cases b <;> simp only [Direttore.Enabled] at hb
  case nanosleepFails => trivial
  case timeout => trivial
  case explode => trivial
  case midnight =>
    obtain ⟨rfl, hmod⟩ := hb
    simp only [Direttore.Phase.OnClock] at h
    simp only [Direttore.next, Diary.record, Direttore.Phase.OnClock]
    omega
  all_goals
    simp only [Direttore.next, Diary.record]
    grind [Direttore.Phase.OnClock]

theorem due_step (site : Site O U) {t : Tick} {l : Direttore.Local} {sh : Shared O U}
    {D : Diary O U} {b : Direttore.Act U} (h : t.Kept site.config l D)
    (hb : Direttore.Enabled site l sh b) (hactive : t.Active site.config)
    (hday : 1 ≤ (D.record (.director b)).day)
    (hdue : t.Due site.config (Direttore.next site l sh b).1.minutesElapsed
      (Direttore.next site l sh b).1.phase) :
    (D.record (.director b)).day ∈ t.days (D.record (.director b)) := by
  obtain ⟨hclock, hold, -⟩ := h
  have hold := hold hactive
  obtain ⟨hpos, -⟩ := hactive
  obtain ⟨phase, m, days, n, printed⟩ := l
  cases b <;> simp only [Direttore.Enabled] at hb <;>
    simp only [Direttore.next, Diary.record] at hday hdue ⊢
  case openPoste =>
    obtain ⟨rfl, hm, -⟩ := hb
    cases t with
    | opening => exact List.mem_cons_self
    | closing => exact hold hday hdue
  case closePoste =>
    obtain ⟨rfl, hm, -⟩ := hb
    cases t with
    | opening => exact hold hday hdue
    | closing => exact List.mem_cons_self
  case startNewDay => exact hdue.elim
  -- the minutes start again, and the tick is not in minute 0
  case dayStarted =>
    have hzero : t.minute site.config ≤ 0 := hdue
    omega
  all_goals
    apply hold hday
    cases t <;> simp only [Tick.Due, Tick.minute, Direttore.Phase.OnClock] at hpos hdue hclock ⊢ <;>
      grind

theorem posting_step (site : Site O U) {t : Tick} {l : Direttore.Local} {sh : Shared O U}
    {D : Diary O U} {b : Direttore.Act U} (h : t.Kept site.config l D)
    (hb : Direttore.Enabled site l sh b)
    (hposts : t.posts (Direttore.next site l sh b).1.phase = true) :
    t.Active site.config ∧
      (D.record (.director b)).day ∈ t.days (D.record (.director b)) := by
  obtain ⟨hclock, -, hold⟩ := h
  obtain ⟨phase, m, days, n, printed⟩ := l
  cases b <;> simp only [Direttore.Enabled] at hb <;>
    simp only [Direttore.next, Diary.record] at hposts ⊢
  case openPoste =>
    obtain ⟨rfl, hm, hzero⟩ := hb
    cases t with
    | opening =>
      refine ⟨?_, List.mem_cons_self⟩
      simp only [Direttore.Phase.OnClock] at hclock
      simp only [Tick.Active, Tick.minute]
      omega
    | closing => cases hposts
  case closePoste =>
    obtain ⟨rfl, hm, hzero⟩ := hb
    cases t with
    | opening => cases hposts
    | closing =>
      refine ⟨?_, List.mem_cons_self⟩
      simp only [Direttore.Phase.OnClock] at hclock
      simp only [Tick.Active, Tick.minute]
      omega
  case postOpen n =>
    cases t with
    | opening =>
      apply hold
      rw [hb]
      rfl
    | closing => cases hposts
  case postClose n =>
    cases t with
    | opening => cases hposts
    | closing =>
      apply hold
      rw [hb]
      rfl
  all_goals cases t <;> cases hposts

theorem Tick.Kept.step (site : Site O U) {t : Tick} {l : Direttore.Local} {sh : Shared O U}
    {D : Diary O U} {b : Direttore.Act U} (h : t.Kept site.config l D)
    (hb : Direttore.Enabled site l sh b) :
    t.Kept site.config (Direttore.next site l sh b).1 (D.record (.director b)) where
  clock := clock_step site h.clock hb
  due := due_step site h hb
  posting := posting_step site h hb

/-- In a cycle that began with a wake-up. -/
def Operatore.Phase.inCycle : Operatore.Phase → Bool
  | .boot | .awaitDay => false
  | _ => true

/-- In a cycle that began with a wake-up. -/
def Utente.Phase.inCycle : Utente.Phase → Bool
  | .notStarted | .boot | .awaitDay => false
  | _ => true

/-- No token is posted before the first day, so who has been woken was woken on some day. -/
structure Woken (s : World O U × Diary O U) : Prop where
  tokens : 0 < s.1.sh.dayUpdateEvent → 1 ≤ s.2.day
  cycle : ∀ p, s.1.marks Operatore.Phase.inCycle Utente.Phase.inCycle p = true → 1 ≤ s.2.cycle p

omit [Fintype O] [Fintype U] in
theorem Woken.wake {w w' : World O U} {D : Diary O U} (h : Woken (w, D)) {p : Proc O U} {b : Bool}
    (hmarks : w'.marks Operatore.Phase.inCycle Utente.Phase.inCycle =
      Function.update (w.marks Operatore.Phase.inCycle Utente.Phase.inCycle) p b)
    (hpos : 0 < w.sh.dayUpdateEvent) : Woken (w', D.wake p) := by
  have hday : 1 ≤ D.day := h.tokens hpos
  refine ⟨fun _ => hday, fun q hq => ?_⟩
  rw [Diary.cycle_wake]
  by_cases hqp : q = p
  · subst q
    rw [Function.update_self]
    exact hday
  · rw [Function.update_of_ne hqp]
    apply h.cycle q
    rw [hmarks, Function.update_of_ne hqp] at hq
    exact hq

omit [Fintype O] [Fintype U] [DecidableEq O] [DecidableEq U] in
theorem Woken.keep {w w' : World O U} {D : Diary O U} (h : Woken (w, D))
    (hmarks : ∀ p, w'.marks Operatore.Phase.inCycle Utente.Phase.inCycle p = true →
      w.marks Operatore.Phase.inCycle Utente.Phase.inCycle p = true)
    (htokens : w'.sh.dayUpdateEvent = w.sh.dayUpdateEvent) : Woken (w', D) where
  tokens hpos := h.tokens (by rwa [← htokens])
  cycle p hp := h.cycle p (hmarks p hp)

theorem Woken.step (site : Site O U) {s : World O U × Diary O U} {a : Act O U} (h : Woken s)
    (hclock : s.1.dir.phase.OnClock s.2.day s.1.dir.minutesElapsed)
    (ha : s.1.Enabled site a) : Woken ((posteDiary site).next s a) := by
  obtain ⟨w, D⟩ := s
  cases a with
  | oper o b =>
    obtain ⟨-, he⟩ := ha
    cases b
    case wake => exact h.wake (marks_oper site w o _) he.2
    all_goals
      refine h.keep (marks_oper_mono site fun hnext => ?_) rfl
      simp only [Operatore.Enabled] at he
      simp only [Operatore.next] at hnext
      grind [Operatore.Phase.inCycle]
  | user u b =>
    obtain ⟨-, he⟩ := ha
    cases b
    case wake => exact h.wake (marks_user site w u _) he.2
    all_goals
      refine h.keep (marks_user_mono site fun hnext => ?_) rfl
      simp only [Utente.Enabled] at he
      simp only [Utente.next] at hnext
      grind [Utente.Phase.inCycle]
  | ticket b => cases b <;> exact h.keep (fun _ hp => hp) rfl
  | director b =>
    obtain ⟨-, he, hstart⟩ := ha
    have hmarks : (w.next site (.director b)).marks Operatore.Phase.inCycle
        Utente.Phase.inCycle = w.marks Operatore.Phase.inCycle Utente.Phase.inCycle :=
      marks_director site rfl hstart
    have hcycle (p : Proc O U) (hp : (w.next site (.director b)).marks Operatore.Phase.inCycle
        Utente.Phase.inCycle p = true) : 1 ≤ D.cycle p := h.cycle p (by rwa [← hmarks])
    cases b
    case startNewDay => exact ⟨fun _ => Nat.le_add_left 1 D.day, hcycle⟩
    case postDay n =>
      have hphase : w.dir.phase = .waking (n + 1) := he
      refine ⟨fun _ => ?_, hcycle⟩
      rw [hphase] at hclock
      exact hclock
    all_goals exact ⟨h.tokens, hcycle⟩
  | «section» => exact h.keep (fun _ hp => hp) rfl

end PosteItaliane
