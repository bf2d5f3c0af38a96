import PosteItaliane.Framework.Progress
import PosteItaliane.Proofs.Schedule

/-!
# The director on its own

While no child takes a step nothing can keep the director from going through its loop. The
lemmas drive it from one point of the loop to the next, through whole days and to the end of
the simulation.
-/

namespace PosteItaliane

open Framework GuardedSystem

variable {O U : Type} [Fintype O] [Fintype U] [DecidableEq O] [DecidableEq U]

/-- The steps of the director and those inside its sections. -/
def Act.ofDirector : Act O U → Prop
  | .director _ | .section => True
  | _ => False

/-- The simulation in which no child takes a step. -/
def directorAlone (site : Site O U) : GuardedSystem (World O U) (Act O U) :=
  (poste site).restrict fun _ a => a.ofDirector

/-- The director is at a point of its loop, nobody is inside a section, and the late users of
the day are not too many. -/
structure DirectorAt (site : Site O U) (phase : Direttore.Phase) (minute day numUsers : ℤ)
    (w : World O U) : Prop where
  phase : w.dir.phase = phase
  minute : w.dir.minutesElapsed = minute
  day : w.dir.daysElapsed = day
  numUsers : w.dir.numUsers = numUsers
  free : w.sh.stats.Free
  fewLate : (w.sh.stats.value.today.lateUsers : ℤ) ≤ site.config.explodeMax

variable {site : Site O U} {m d n : ℤ}

omit [DecidableEq O] [DecidableEq U] in
theorem DirectorAt.outside {phase : Direttore.Phase} {w : World O U}
    (h : DirectorAt site phase m d n w) : w.sh.stats.inside ≠ some .direttore := by
  have hholder : w.sh.stats.holder = none := h.free
  simp [Monitor.inside, hholder]

theorem leads_director {phase phase' : Direttore.Phase} {m' d' : ℤ} (b : Direttore.Act U)
    (hstart : ∀ u k, b ≠ .startUser u k)
    (hb : ∀ (l : Direttore.Local) (sh : Shared O U), l.phase = phase → l.minutesElapsed = m →
      l.daysElapsed = d → l.numUsers = n →
      (sh.stats.value.today.lateUsers : ℤ) ≤ site.config.explodeMax →
      Direttore.Enabled site l sh b ∧ (Direttore.next site l sh b).1.phase = phase' ∧
        (Direttore.next site l sh b).1.minutesElapsed = m' ∧
        (Direttore.next site l sh b).1.daysElapsed = d' ∧
        (Direttore.next site l sh b).1.numUsers = n ∧
        (Direttore.next site l sh b).2.stats = sh.stats) :
    (directorAlone site).Leads (DirectorAt site phase m d n) (DirectorAt site phase' m' d' n) := by
  apply Leads.step (.director b)
  intro w h
  obtain ⟨he, hphase, hminute, hday, husers, hstats⟩ :=
    hb w.dir w.sh h.phase h.minute h.day h.numUsers h.fewLate
  have hcan : w.CanStart b := by
    cases b <;> try trivial
    case startUser u k => exact absurd rfl (hstart u k)
  refine ⟨⟨⟨h.outside, he, hcan⟩, trivial⟩, hphase, hminute, hday, husers, ?_, ?_⟩
  · show (Direttore.next site w.dir w.sh b).2.stats.Free
    rw [hstats]
    exact h.free
  · show ((Direttore.next site w.dir w.sh b).2.stats.value.today.lateUsers : ℤ) ≤ _
    rw [hstats]
    exact h.fewLate

theorem leads_tick (hday : d < site.config.simDuration) :
    (directorAlone site).Leads (DirectorAt site .loop m d n)
      (DirectorAt site .openCheck m d n) := by
  apply leads_director .tick (by simp)
  intro l sh hphase hm hd hn _
  exact ⟨⟨hphase, hd ▸ hday⟩, rfl, hm, hd, hn, rfl⟩

theorem leads_opening : (directorAlone site).Leads (DirectorAt site .openCheck m d n)
    (DirectorAt site .closeCheck m d n) := by
  by_cases hopen : m = site.config.workerShiftOpen * 60 ∧ m ≠ 0
  · have hposts (k : ℕ) : (directorAlone site).Leads (DirectorAt site (.opening (k + 1)) m d n)
        (DirectorAt site (.opening k) m d n) := by
      apply leads_director (.postOpen k) (by simp)
      intro l sh hphase hm hd hn _
      exact ⟨hphase, rfl, hm, hd, hn, rfl⟩
    have hbegin : (directorAlone site).Leads (DirectorAt site .openCheck m d n)
        (DirectorAt site (.opening (site.config.numOperators + n).toNat) m d n) := by
      apply leads_director .openPoste (by simp)
      intro l sh hphase hm hd hn _
      refine ⟨⟨hphase, hm ▸ hopen⟩, ?_, hm, hd, hn, rfl⟩
      rw [← hn]
      rfl
    have hend : (directorAlone site).Leads (DirectorAt site (.opening 0) m d n)
        (DirectorAt site .closeCheck m d n) := by
      apply leads_director .opened (by simp)
      intro l sh hphase hm hd hn _
      exact ⟨hphase, rfl, hm, hd, hn, rfl⟩
    have hall := Leads.countdown (P := fun k => DirectorAt site (.opening k) m d n) hposts
      (site.config.numOperators + n).toNat
    exact (hbegin.trans hall).trans hend
  · apply leads_director .skipOpen (by simp)
    intro l sh hphase hm hd hn _
    exact ⟨⟨hphase, hm ▸ hopen⟩, rfl, hm, hd, hn, rfl⟩

theorem leads_closing : (directorAlone site).Leads (DirectorAt site .closeCheck m d n)
    (DirectorAt site .midnightCheck m d n) := by
  by_cases hclose : m = site.config.workerShiftClose * 60 ∧ m ≠ 0
  · have hposts (k : ℕ) : (directorAlone site).Leads (DirectorAt site (.closing (k + 1)) m d n)
        (DirectorAt site (.closing k) m d n) := by
      apply leads_director (.postClose k) (by simp)
      intro l sh hphase hm hd hn _
      exact ⟨hphase, rfl, hm, hd, hn, rfl⟩
    have hbegin : (directorAlone site).Leads (DirectorAt site .closeCheck m d n)
        (DirectorAt site (.closing site.config.numOperators.toNat) m d n) := by
      apply leads_director .closePoste (by simp)
      intro l sh hphase hm hd hn _
      exact ⟨⟨hphase, hm ▸ hclose⟩, rfl, hm, hd, hn, rfl⟩
    have hend : (directorAlone site).Leads (DirectorAt site (.closing 0) m d n)
        (DirectorAt site .midnightCheck m d n) := by
      apply leads_director .closed (by simp)
      intro l sh hphase hm hd hn _
      exact ⟨hphase, rfl, hm, hd, hn, rfl⟩
    have hall := Leads.countdown (P := fun k => DirectorAt site (.closing k) m d n) hposts
      site.config.numOperators.toNat
    exact (hbegin.trans hall).trans hend
  · apply leads_director .skipClose (by simp)
    intro l sh hphase hm hd hn _
    exact ⟨⟨hphase, hm ▸ hclose⟩, rfl, hm, hd, hn, rfl⟩

theorem leads_clock : (directorAlone site).Leads (DirectorAt site .newUsers m d n)
    (DirectorAt site .loop (m + 1) d n) := by
  exists [.director .noNewUsers, .director (.publishMinute (m + 1)), .section, .section]
  intro w h
  obtain ⟨hphase, hminute, hday, husers, hfree, hlate⟩ := h
  obtain ⟨sh, opers, users, ticket, ⟨phase, minutes, days, numUsers, printed⟩⟩ := w
  obtain ⟨⟨value, holder⟩, openE, closeE, dayE, seats, stE, frE, queue⟩ := sh
  simp only at hphase hminute hday husers
  have hholder : holder = none := hfree
  subst hphase hminute hday husers hholder
  constructor
  · simp [Runs, directorAlone, restrict, Act.ofDirector, poste, World.Enabled, World.next,
      World.CanStart, Direttore.Enabled, Direttore.next, Monitor.inside, Monitor.Free,
      Monitor.enter, Monitor.advance, publishMinute]
  · exact ⟨rfl, rfl, rfl, rfl, rfl, hlate⟩

theorem leads_newDay (hexplode : 0 ≤ site.config.explodeMax) :
    (directorAlone site).Leads (DirectorAt site .explodeCheck m d n)
      (DirectorAt site .newUsers 0 d n) := by
  have hreset : (directorAlone site).Leads (DirectorAt site .explodeCheck m d n)
      (DirectorAt site (.waking (n + site.config.numOperators).toNat) m d n) := by
    exists [.director .startNewDay, .director .printDayStats, .director (.resetStats d), .section,
      .section, .section, .director (.resetSeats fun _ => 0)]
    intro w h
    obtain ⟨hphase, hminute, hday, husers, hfree, hlate⟩ := h
    obtain ⟨sh, opers, users, ticket, ⟨phase, minutes, days, numUsers, printed⟩⟩ := w
    obtain ⟨⟨value, holder⟩, openE, closeE, dayE, seats, stE, frE, queue⟩ := sh
    simp only at hphase hminute hday husers hlate
    have hholder : holder = none := hfree
    subst hphase hminute hday husers hholder
    constructor
    · simp [Runs, directorAlone, restrict, Act.ofDirector, poste, World.Enabled, World.next,
        World.CanStart, Direttore.Enabled, Direttore.next, Monitor.inside, Monitor.Free,
        Monitor.enter, Monitor.advance, resetDailyStats, hlate]
    · exact ⟨rfl, rfl, rfl, rfl, rfl, hexplode⟩
  have hposts (k : ℕ) : (directorAlone site).Leads (DirectorAt site (.waking (k + 1)) m d n)
      (DirectorAt site (.waking k) m d n) := by
    apply leads_director (.postDay k) (by simp)
    intro l sh hphase hm hd hn _
    exact ⟨hphase, rfl, hm, hd, hn, rfl⟩
  have hend : (directorAlone site).Leads (DirectorAt site (.waking 0) m d n)
      (DirectorAt site .newUsers 0 d n) := by
    apply leads_director .dayStarted (by simp)
    intro l sh hphase hm hd hn _
    exact ⟨hphase, rfl, rfl, hd, hn, rfl⟩
  have hall := Leads.countdown (P := fun k => DirectorAt site (.waking k) m d n) hposts
    (n + site.config.numOperators).toNat
  exact (hreset.trans hall).trans hend

theorem leads_midnightCheck (hday : d < site.config.simDuration) : (directorAlone site).Leads
    (DirectorAt site .loop m d n) (DirectorAt site .midnightCheck m d n) :=
  ((leads_tick hday).trans leads_opening).trans leads_closing

theorem leads_minute (hday : d < site.config.simDuration) (hm : m % 1440 ≠ 0) :
    (directorAlone site).Leads (DirectorAt site .loop m d n)
      (DirectorAt site .loop (m + 1) d n) := by
  have hskip : (directorAlone site).Leads (DirectorAt site .midnightCheck m d n)
      (DirectorAt site .newUsers m d n) := by
    apply leads_director .skipMidnight (by simp)
    intro l sh hphase hminute hd hn _
    exact ⟨⟨hphase, hminute ▸ hm⟩, rfl, hminute, hd, hn, rfl⟩
  exact ((leads_midnightCheck hday).trans hskip).trans leads_clock

theorem leads_explodeCheck (hday : d < site.config.simDuration) (hm : m % 1440 = 0) :
    (directorAlone site).Leads (DirectorAt site .loop m d n)
      (DirectorAt site .explodeCheck m (d + 1) n) := by
  have hmidnight : (directorAlone site).Leads (DirectorAt site .midnightCheck m d n)
      (DirectorAt site .explodeCheck m (d + 1) n) := by
    apply leads_director .midnight (by simp)
    intro l sh hphase hminute hd hn _
    refine ⟨⟨hphase, hminute ▸ hm⟩, rfl, hminute, ?_, hn, rfl⟩
    rw [← hd]
    rfl
  exact (leads_midnightCheck hday).trans hmidnight

theorem leads_midnight (hexplode : 0 ≤ site.config.explodeMax)
    (hday : d < site.config.simDuration) (hm : m % 1440 = 0) : (directorAlone site).Leads
    (DirectorAt site .loop m d n) (DirectorAt site .loop 1 (d + 1) n) :=
  ((leads_explodeCheck hday hm).trans (leads_newDay hexplode)).trans leads_clock

theorem leads_lastMinute (hday : d < site.config.simDuration) :
    (directorAlone site).Leads (DirectorAt site .loop 1 d n) (DirectorAt site .loop 1440 d n) := by
  have hminutes (k : ℕ) (hk : k < 1439) : (directorAlone site).Leads
      (DirectorAt site .loop (1 + k) d n) (DirectorAt site .loop (1 + (k + 1 : ℕ)) d n) := by
    have hm : (1 + (k : ℤ)) % 1440 ≠ 0 := by omega
    have hnext : 1 + ((k + 1 : ℕ) : ℤ) = 1 + k + 1 := by omega
    rw [hnext]
    exact leads_minute hday hm
  exact Leads.countup (P := fun k : ℕ => DirectorAt site .loop (1 + (k : ℤ)) d n) hminutes

theorem leads_lastDay (hexplode : 0 ≤ site.config.explodeMax) {N : ℕ}
    (hN : (N : ℤ) + 1 = site.config.simDuration) : (directorAlone site).Leads
    (DirectorAt site .loop 0 0 n) (DirectorAt site .loop 1 site.config.simDuration n) := by
  have hfirst : (directorAlone site).Leads (DirectorAt site .loop 0 0 n)
      (DirectorAt site .loop 1 1 n) :=
    leads_midnight hexplode (by omega) (by omega)
  have hdays (k : ℕ) (hk : k < N) : (directorAlone site).Leads
      (DirectorAt site .loop 1 (1 + k) n) (DirectorAt site .loop 1 (1 + (k + 1 : ℕ)) n) := by
    have hnext : 1 + ((k + 1 : ℕ) : ℤ) = 1 + k + 1 := by omega
    rw [hnext]
    exact (leads_lastMinute (by omega)).trans (leads_midnight hexplode (by omega) (by omega))
  have hall := Leads.countup (P := fun k : ℕ => DirectorAt site .loop 1 (1 + (k : ℤ)) n) hdays
  have hlast : 1 + (N : ℤ) = site.config.simDuration := by omega
  rw [hlast] at hall
  exact hfirst.trans hall

/-- The director on its own gets to the end of the simulation. -/
theorem leads_over (hexplode : 0 ≤ site.config.explodeMax) (hpos : 0 < site.config.simDuration) :
    (directorAlone site).Leads (DirectorAt site .loop 0 0 n)
      (DirectorAt site .over 1 site.config.simDuration n) := by
  obtain ⟨N, hN⟩ : ∃ N : ℕ, (N : ℤ) + 1 = site.config.simDuration :=
    ⟨(site.config.simDuration - 1).toNat, by omega⟩
  have htimeout : (directorAlone site).Leads (DirectorAt site .loop 1 site.config.simDuration n)
      (DirectorAt site .over 1 site.config.simDuration n) := by
    apply leads_director .timeout (by simp)
    intro l sh hphase hm hd hn _
    exact ⟨⟨hphase, hd.ge⟩, rfl, hm, hd, hn, rfl⟩
  exact (leads_lastDay hexplode hN).trans htimeout

end PosteItaliane
