import PosteItaliane.Framework.GuardedSystem
import Mathlib.Logic.Function.Basic

/-!
# Semaphores used as broadcasts

A counting semaphore that is posted once for every agent reaches all of them only if each
takes one token. Two uses are studied. In `Rounds` every agent is to be woken once a round;
nobody has a round twice if an agent that has had it waits again only when no token is
there. In `Gate` tokens are posted at a tick of every day, and the agents of a day are
to pass after that tick; they do if they find no token when they come before it.
-/

namespace Framework

variable {A : Type*}

/-- `born` is the round in which an agent was created, and `lived` are the rounds in which
it was woken, the last one first. -/
structure Rounds (A : Type*) where
  round : ℕ
  born : A → ℕ
  lived : A → List ℕ
  waiting : A → Bool
  tokens : ℕ
  posting : Bool

namespace Rounds

inductive Event (A : Type*) where
  | start
  | post
  | finish
  | create (a : A)
  | wait (a : A)
  | wake (a : A)

/-- The round an agent has had last. -/
def last (g : Rounds A) (a : A) : ℕ := (g.lived a).headD (g.born a)

variable [DecidableEq A]

def system : GuardedSystem (Rounds A) (Event A) where
  Enabled g
    | .start => True
    | .post => g.posting = true
    | .finish => True
    | .create a => g.waiting a = false ∧ g.lived a = []
    | .wait _ => True
    | .wake a => g.waiting a = true ∧ 0 < g.tokens
  next g
    | .start => { g with round := g.round + 1, posting := true }
    | .post => { g with tokens := g.tokens + 1 }
    | .finish => { g with posting := false }
    | .create a => { g with born := Function.update g.born a g.round }
    | .wait a => { g with waiting := Function.update g.waiting a true }
    | .wake a =>
      { g with
        lived := Function.update g.lived a (g.round :: g.lived a)
        waiting := Function.update g.waiting a false
        tokens := g.tokens - 1 }

/-- An agent that has had the current round waits only when no token is there and none is
being posted. -/
def Punctual (g : Rounds A) : Event A → Prop
  | .wait a => g.last a = g.round → g.tokens = 0 ∧ g.posting = false
  | _ => True

/-- Nobody has had a round twice, and who has had the current one finds no token. -/
structure InStep (g : Rounds A) : Prop where
  bound : ∀ a, (g.lived a).length + g.born a ≤ g.last a
  latest : ∀ a, ∀ r ∈ g.lived a, r ≤ g.last a
  nodup : ∀ a, (g.lived a).Nodup
  last_le : ∀ a, g.last a ≤ g.round
  level : ∀ a, g.waiting a = true → g.last a < g.round ∨ g.tokens = 0 ∧ g.posting = false

@[simp] theorem last_wake (g : Rounds A) (a : A) :
    (system.next g (.wake a)).last a = g.round := by
  simp [system, last]

theorem last_wake_of_ne (g : Rounds A) {a b : A} (h : b ≠ a) :
    (system.next g (.wake a)).last b = g.last b := by
  simp [system, last, h]

theorem last_create_of_ne (g : Rounds A) {a b : A} (h : b ≠ a) :
    (system.next g (.create a)).last b = g.last b := by
  simp [system, last, h]

theorem InStep.create {g : Rounds A} (hg : g.InStep) {a : A} (hwaiting : g.waiting a = false)
    (hlived : g.lived a = []) : (system.next g (.create a)).InStep := by
  have hlast : (system.next g (.create a)).last a = g.round := by simp [system, last, hlived]
  refine ⟨fun b => ?_, fun b r hr => ?_, hg.nodup, fun b => ?_, fun b hb => ?_⟩
  · by_cases hba : b = a
    · subst b
      rw [hlast]
      simp [system, hlived]
    · rw [last_create_of_ne g hba]
      simpa [system, hba] using hg.bound b
  · by_cases hba : b = a
    · subst b
      simp [system, hlived] at hr
    · rw [last_create_of_ne g hba]
      exact hg.latest b r hr
  · by_cases hba : b = a
    · subst b
      exact Nat.le_of_eq hlast
    · rw [last_create_of_ne g hba]
      exact hg.last_le b
  · have hba : b ≠ a := by
      rintro rfl
      exact absurd (hwaiting.symm.trans hb) (by simp)
    rw [last_create_of_ne g hba]
    exact hg.level b hb

theorem InStep.wake {g : Rounds A} (hg : g.InStep) {a : A} (hwaiting : g.waiting a = true)
    (htokens : 0 < g.tokens) : (system.next g (.wake a)).InStep := by
  have hbehind {b : A} (hb : g.waiting b = true) : g.last b < g.round := by
    rcases hg.level b hb with hlt | ⟨hzero, -⟩
    · exact hlt
    · omega
  have hlt : g.last a < g.round := hbehind hwaiting
  have hlived : (system.next g (.wake a)).lived a = g.round :: g.lived a := by simp [system]
  have hother {b : A} (hba : b ≠ a) : (system.next g (.wake a)).lived b = g.lived b := by
    simp [system, hba]
  refine ⟨fun b => ?_, fun b r hr => ?_, fun b => ?_, fun b => ?_, fun b hb => Or.inl ?_⟩
  · by_cases hba : b = a
    · subst b
      have hbound := hg.bound a
      rw [last_wake, hlived, List.length_cons]
      show (g.lived a).length + 1 + g.born a ≤ g.round
      omega
    · rw [last_wake_of_ne g hba, hother hba]
      exact hg.bound b
  · by_cases hba : b = a
    · subst b
      rw [last_wake]
      rw [hlived, List.mem_cons] at hr
      rcases hr with rfl | hr
      · exact Nat.le_refl _
      · exact Nat.le_trans (hg.latest a r hr) (Nat.le_of_lt hlt)
    · rw [last_wake_of_ne g hba]
      rw [hother hba] at hr
      exact hg.latest b r hr
  · by_cases hba : b = a
    · subst b
      rw [hlived, List.nodup_cons]
      exact ⟨fun hmem => absurd (hg.latest a _ hmem) (Nat.not_le.mpr hlt), hg.nodup a⟩
    · rw [hother hba]
      exact hg.nodup b
  · by_cases hba : b = a
    · subst b
      exact Nat.le_of_eq (last_wake g a)
    · rw [last_wake_of_ne g hba]
      exact hg.last_le b
  · have hba : b ≠ a := by
      rintro rfl
      simp [system] at hb
    rw [last_wake_of_ne g hba]
    exact hbehind (by simpa [system, hba] using hb)

theorem inStep_step (g : Rounds A) (e : Event A) (hg : g.InStep)
    (he : (system.restrict Punctual).Enabled g e) : (system.next g e).InStep := by
  cases e with
  | start =>
    exact ⟨hg.bound, hg.latest, hg.nodup, fun a => Nat.le_succ_of_le (hg.last_le a),
      fun a _ => Or.inl (Nat.lt_succ_of_le (hg.last_le a))⟩
  | post =>
    have hposting : g.posting = true := he.1
    refine ⟨hg.bound, hg.latest, hg.nodup, hg.last_le, fun a ha => ?_⟩
    rcases hg.level a ha with hlt | ⟨-, hnot⟩
    · exact Or.inl hlt
    · rw [hposting] at hnot
      cases hnot
  | finish =>
    refine ⟨hg.bound, hg.latest, hg.nodup, hg.last_le, fun a ha => ?_⟩
    rcases hg.level a ha with hlt | ⟨hzero, -⟩
    · exact Or.inl hlt
    · exact Or.inr ⟨hzero, rfl⟩
  | create a => exact hg.create he.1.1 he.1.2
  | wait a =>
    refine ⟨hg.bound, hg.latest, hg.nodup, hg.last_le, fun b hb => ?_⟩
    by_cases hba : b = a
    · subst b
      rcases Nat.lt_or_eq_of_le (hg.last_le a) with hlt | heq
      · exact Or.inl hlt
      · exact Or.inr (he.2 heq)
    · exact hg.level b (by simpa [system, hba] using hb)
  | wake a => exact hg.wake he.1.1 he.1.2

theorem inStep_run {g : Rounds A} (hg : g.InStep) (es : List (Event A))
    (h : (system.restrict Punctual).Runs g es) : (system.after g es).InStep :=
  (system.restrict Punctual).invariant hg (fun t e ht he => inStep_step t e ht he) es h

end Rounds

/-- `ticked` are the days whose tick has come, and `cycle` is the day an agent lives. -/
structure Gate (A : Type*) where
  day : ℕ
  ticked : List ℕ
  tokens : ℕ
  cycle : A → ℕ
  watch : A → Bool

namespace Gate

inductive Event (A : Type*) where
  | newDay
  | tick
  | post
  | wake (a : A)
  | begin (a : A)
  | take (a : A)
  | leave (a : A)

variable [DecidableEq A]

/-- A gate that is not active never ticks. -/
def system (active : Prop) : GuardedSystem (Gate A) (Event A) where
  Enabled g
    | .newDay => active → g.day = 0 ∨ g.day ∈ g.ticked
    | .tick => active
    | .post => active ∧ g.day ∈ g.ticked
    | .wake a => g.watch a = false
    | .begin a => 1 ≤ g.cycle a
    | .take a => g.watch a = true ∧ 0 < g.tokens
    | .leave _ => True
  next g
    | .newDay => { g with day := g.day + 1 }
    | .tick => { g with ticked := g.day :: g.ticked }
    | .post => { g with tokens := g.tokens + 1 }
    | .wake a => { g with cycle := Function.update g.cycle a g.day }
    | .begin a => { g with watch := Function.update g.watch a true }
    | .take a => { g with watch := Function.update g.watch a false, tokens := g.tokens - 1 }
    | .leave a => { g with watch := Function.update g.watch a false }

/-- An agent that comes before the tick of its day finds no token. -/
def Sealed (g : Gate A) : Event A → Prop
  | .begin a => g.cycle a ∉ g.ticked → g.tokens = 0
  | _ => True

structure Kept (active : Prop) (g : Gate A) : Prop where
  past : active → ∀ d, 1 ≤ d → d < g.day → d ∈ g.ticked
  cycle : ∀ a, g.cycle a ≤ g.day
  watch : ∀ a, g.watch a = true → 1 ≤ g.cycle a ∧ (g.cycle a ∈ g.ticked ∨ g.tokens = 0)

theorem kept_step {active : Prop} (g : Gate A) (e : Event A) (hg : g.Kept active)
    (he : ((system active).restrict Sealed).Enabled g e) :
    ((system active).next g e).Kept active := by
  obtain ⟨hpast, hcycle, hwatch⟩ := hg
  cases e with
  | newDay =>
    refine ⟨fun hactive d h1 hd => ?_, fun a => Nat.le_succ_of_le (hcycle a), hwatch⟩
    rcases Nat.lt_succ_iff_lt_or_eq.mp hd with hlt | rfl
    · exact hpast hactive d h1 hlt
    · rcases he.1 hactive with hzero | hmem
      · omega
      · exact hmem
  | tick =>
    refine ⟨fun hactive d h1 hd => List.mem_cons_of_mem _ (hpast hactive d h1 hd), hcycle,
      fun a ha => ⟨(hwatch a ha).1, ?_⟩⟩
    rcases (hwatch a ha).2 with hmem | hzero
    · exact Or.inl (List.mem_cons_of_mem _ hmem)
    · exact Or.inr hzero
  | post =>
    obtain ⟨hactive, hday⟩ := he.1
    refine ⟨hpast, hcycle, fun a ha => ⟨(hwatch a ha).1, Or.inl ?_⟩⟩
    rcases Nat.lt_or_eq_of_le (hcycle a) with hlt | heq
    · exact hpast hactive _ (hwatch a ha).1 hlt
    · show g.cycle a ∈ g.ticked
      rwa [heq]
  | wake a =>
    have hawake : g.watch a = false := he.1
    refine ⟨hpast, fun b => ?_, fun b hb => ?_⟩
    · by_cases hba : b = a
      · subst b
        simp [system]
      · simpa [system, hba] using hcycle b
    · have hba : b ≠ a := by
        rintro rfl
        exact absurd (hawake.symm.trans hb) (by simp)
      simpa [system, hba] using hwatch b hb
  | begin a =>
    refine ⟨hpast, hcycle, fun b hb => ?_⟩
    by_cases hba : b = a
    · subst b
      refine ⟨he.1, ?_⟩
      by_cases hmem : g.cycle a ∈ g.ticked
      · exact Or.inl hmem
      · exact Or.inr (he.2 hmem)
    · exact hwatch b (by simpa [system, hba] using hb)
  | take a =>
    obtain ⟨-, htokens⟩ := he.1
    refine ⟨hpast, hcycle, fun b hb => ?_⟩
    have hba : b ≠ a := by
      rintro rfl
      simp [system] at hb
    obtain ⟨h1, hmem | hzero⟩ := hwatch b (by simpa [system, hba] using hb)
    · exact ⟨h1, Or.inl hmem⟩
    · omega
  | leave a =>
    refine ⟨hpast, hcycle, fun b hb => ?_⟩
    have hba : b ≠ a := by
      rintro rfl
      simp [system] at hb
    exact hwatch b (by simpa [system, hba] using hb)

theorem kept_run {active : Prop} {g : Gate A} (hg : g.Kept active) (es : List (Event A))
    (h : ((system active).restrict Sealed).Runs g es) :
    ((system active).after g es).Kept active :=
  ((system active).restrict Sealed).invariant hg (fun t e ht he => kept_step t e ht he) es h

/-- Whoever passes the gate passes it after the tick of its day. -/
theorem Kept.ticked_of_take {active : Prop} {g : Gate A} (hg : g.Kept active) {a : A}
    (ha : (system active).Enabled g (.take a)) : g.cycle a ∈ g.ticked := by
  obtain ⟨hwatch, htokens⟩ := ha
  rcases (hg.watch a hwatch).2 with hmem | hzero
  · exact hmem
  · omega

end Gate

end Framework
