import Mathlib.Algebra.Group.Defs
import Mathlib.Data.List.Induction
import Mathlib.Data.Prod.Basic

/-!
# Guarded systems

A guarded system gives every action a guard and an effect. A run is the list of actions
that were executed, so a property of a run can speak about the order of its events, and a
concrete run can be evaluated. The rules below are the induction principles the
verification uses: step invariants, invariants of the events so far, restriction of the
system to the steps that meet a condition, history variables, and forward simulation.
-/

namespace Framework

/-- Actions with a guard and an effect over one state type. -/
structure GuardedSystem (σ α : Type*) where
  Enabled : σ → α → Prop
  next : σ → α → σ

namespace GuardedSystem

variable {σ α τ β : Type*} (S : GuardedSystem σ α)

/-- The state after a list of actions. -/
def after (s : σ) (as : List α) : σ := as.foldl S.next s

/-- Every action of the list is enabled when its turn comes. -/
def Runs : σ → List α → Prop
  | _, [] => True
  | s, a :: as => S.Enabled s a ∧ Runs (S.next s a) as

instance Runs.decidable [∀ s a, Decidable (S.Enabled s a)] :
    ∀ (s : σ) (as : List α), Decidable (S.Runs s as)
  | _, [] => isTrue trivial
  | s, a :: as =>
      have := Runs.decidable (S.next s a) as
      inferInstanceAs (Decidable (S.Enabled s a ∧ S.Runs (S.next s a) as))

@[simp] theorem after_nil (s : σ) : S.after s [] = s := rfl

@[simp] theorem after_cons (s : σ) (a : α) (as : List α) :
    S.after s (a :: as) = S.after (S.next s a) as := rfl

theorem after_append (s : σ) (as bs : List α) :
    S.after s (as ++ bs) = S.after (S.after s as) bs := by
  simp [after, List.foldl_append]

theorem after_snoc (s : σ) (as : List α) (a : α) :
    S.after s (as ++ [a]) = S.next (S.after s as) a := by
  rw [after_append, after_cons, after_nil]

@[simp] theorem runs_nil (s : σ) : S.Runs s [] := trivial

theorem runs_append (s : σ) (as bs : List α) :
    S.Runs s (as ++ bs) ↔ S.Runs s as ∧ S.Runs (S.after s as) bs := by
  induction as generalizing s with
  | nil => simp
  | cons a as ih => simp only [List.cons_append, Runs, ih, after_cons, and_assoc]

theorem runs_snoc (s : σ) (as : List α) (a : α) :
    S.Runs s (as ++ [a]) ↔ S.Runs s as ∧ S.Enabled (S.after s as) a := by
  rw [runs_append]
  simp [Runs]

theorem Runs.of_prefix {s : σ} {as bs : List α} (h : S.Runs s as) (hbs : bs <+: as) :
    S.Runs s bs := by
  obtain ⟨cs, rfl⟩ := hbs
  exact ((S.runs_append s bs cs).mp h).1

/-- A property of the events so far and the state they lead to, kept by every step. What is known
of all runs may be used at each step. -/
theorem trace_invariant_of {P Q : List α → σ → Prop} {s : σ}
    (hQ : ∀ as, S.Runs s as → Q as (S.after s as)) (h0 : P [] s)
    (hstep : ∀ as t a, Q as t → P as t → S.Enabled t a → P (as ++ [a]) (S.next t a))
    (as : List α) (h : S.Runs s as) : P as (S.after s as) := by
  induction as using List.reverseRecOn with
  | nil => exact h0
  | append_singleton as a ih =>
    obtain ⟨has, ha⟩ := (S.runs_snoc s as a).mp h
    rw [after_snoc]
    exact hstep as _ a (hQ as has) (ih has) ha

theorem trace_invariant {P : List α → σ → Prop} {s : σ} (h0 : P [] s)
    (hstep : ∀ as t a, P as t → S.Enabled t a → P (as ++ [a]) (S.next t a))
    (as : List α) (h : S.Runs s as) : P as (S.after s as) :=
  S.trace_invariant_of (Q := fun _ _ => True) (fun _ _ => trivial) h0
    (fun as t a _ => hstep as t a) as h

theorem invariant {P : σ → Prop} {s : σ} (h0 : P s)
    (hstep : ∀ t a, P t → S.Enabled t a → P (S.next t a))
    (as : List α) (h : S.Runs s as) : P (S.after s as) :=
  S.trace_invariant (P := fun _ t => P t) h0 (fun _ t a => hstep t a) as h

/-- The same system, allowed to take only the steps that meet a condition. -/
def restrict (C : σ → α → Prop) : GuardedSystem σ α where
  Enabled s a := S.Enabled s a ∧ C s a
  next := S.next

@[simp] theorem restrict_after (C : σ → α → Prop) (s : σ) (as : List α) :
    (S.restrict C).after s as = S.after s as := rfl

theorem Runs.of_restrict {C : σ → α → Prop} {s : σ} {as : List α}
    (h : (S.restrict C).Runs s as) : S.Runs s as := by
  induction as generalizing s with
  | nil => trivial
  | cons a as ih => exact ⟨h.1.1, ih h.2⟩

theorem Runs.restrict_of_forall {C : σ → α → Prop} {s : σ} {as : List α} (h : S.Runs s as)
    (hC : ∀ a ∈ as, ∀ t, C t a) : (S.restrict C).Runs s as := by
  induction as generalizing s with
  | nil => trivial
  | cons a as ih =>
    have hrest := ih h.2 (fun b hb => hC b (List.mem_cons_of_mem a hb))
    exact ⟨⟨h.1, hC a List.mem_cons_self s⟩, hrest⟩

theorem runs_restrict_const {D : α → Prop} {s : σ} {as : List α} :
    (S.restrict fun _ a => D a).Runs s as ↔ S.Runs s as ∧ ∀ a ∈ as, D a := by
  induction as generalizing s with
  | nil => simp
  | cons a as ih =>
    have hstep : (S.restrict fun _ a => D a).Runs s (a :: as) ↔
        (S.Enabled s a ∧ D a) ∧ (S.restrict fun _ a => D a).Runs (S.next s a) as := Iff.rfl
    rw [hstep, ih, List.forall_mem_cons]
    exact and_and_and_comm

theorem Runs.restrict_and {C : σ → α → Prop} {D : α → Prop} {s : σ} {as : List α}
    (h : (S.restrict C).Runs s as) (hD : ∀ a ∈ as, D a) :
    (S.restrict fun s a => D a ∧ C s a).Runs s as := by
  induction as generalizing s with
  | nil => trivial
  | cons a as ih =>
    have hrest := ih h.2 (fun b hb => hD b (List.mem_cons_of_mem a hb))
    exact ⟨⟨h.1.1, hD a List.mem_cons_self, h.1.2⟩, hrest⟩

instance restrict_decidable (C : σ → α → Prop) [∀ s a, Decidable (S.Enabled s a)]
    [∀ s a, Decidable (C s a)] (s : σ) (a : α) : Decidable ((S.restrict C).Enabled s a) :=
  inferInstanceAs (Decidable (S.Enabled s a ∧ C s a))

/-- The system with a history variable that records every action and restrains none. -/
def withHistory {η : Type*} (record : η → α → η) : GuardedSystem (σ × η) α where
  Enabled p a := S.Enabled p.1 a
  next p a := (S.next p.1 a, record p.2 a)

theorem after_withHistory {η : Type*} (record : η → α → η) (s : σ) (h : η) (as : List α) :
    (S.withHistory record).after (s, h) as = (S.after s as, as.foldl record h) := by
  induction as generalizing s h with
  | nil => rfl
  | cons a as ih => exact ih (S.next s a) (record h a)

theorem runs_withHistory {η : Type*} (record : η → α → η) (s : σ) (h : η) (as : List α) :
    (S.withHistory record).Runs (s, h) as ↔ S.Runs s as := by
  induction as generalizing s h with
  | nil => exact Iff.rfl
  | cons a as ih => exact and_congr_right fun _ => ih (S.next s a) (record h a)

/-- The system with a ghost that also sees the state in which an action is taken. -/
def withGhost {η : Type*} (record : η → σ → α → η) : GuardedSystem (σ × η) α where
  Enabled p a := S.Enabled p.1 a
  next p a := (S.next p.1 a, record p.2 p.1 a)

@[simp] theorem after_withGhost_fst {η : Type*} (record : η → σ → α → η) (s : σ) (g : η)
    (as : List α) : ((S.withGhost record).after (s, g) as).1 = S.after s as := by
  induction as generalizing s g with
  | nil => rfl
  | cons a as ih => exact ih (S.next s a) (record g s a)

theorem runs_withGhost {η : Type*} (record : η → σ → α → η) (s : σ) (g : η) (as : List α) :
    (S.withGhost record).Runs (s, g) as ↔ S.Runs s as := by
  induction as generalizing s g with
  | nil => exact Iff.rfl
  | cons a as ih => exact and_congr_right fun _ => ih (S.next s a) (record g s a)

theorem runs_withGhost_after {η : Type*} (record : η → σ → α → η) (s : σ) (g : η)
    (as bs : List α) : (S.withGhost record).Runs ((S.withGhost record).after (s, g) as) bs ↔
      S.Runs (S.after s as) bs := by
  rw [← S.after_withGhost_fst record s g as]
  exact S.runs_withGhost record _ _ bs

theorem after_withGhost_of_forall {η : Type*} (record : η → σ → α → η) {as : List α}
    (hkeep : ∀ a ∈ as, ∀ g s, record g s a = g) (s : σ) (g : η) :
    (S.withGhost record).after (s, g) as = (S.after s as, g) := by
  induction as generalizing s with
  | nil => rfl
  | cons a as ih =>
    have hrest := ih (fun b hb => hkeep b (List.mem_cons_of_mem a hb)) (S.next s a)
    rw [after_cons, after_cons, ← hrest]
    exact congrArg (fun g' => (S.withGhost record).after (S.next s a, g') as)
      (hkeep a List.mem_cons_self g s)

/-- What the steps of a run add up to, if an action counts `f` in the state it is taken in. -/
def sumOver {M : Type*} [AddMonoid M] (f : σ → α → M) : σ → List α → M
  | _, [] => 0
  | s, a :: as => f s a + sumOver f (S.next s a) as

theorem sumOver_append {M : Type*} [AddMonoid M] (f : σ → α → M) (s : σ) (as bs : List α) :
    S.sumOver f s (as ++ bs) = S.sumOver f s as + S.sumOver f (S.after s as) bs := by
  induction as generalizing s with
  | nil => simp [sumOver]
  | cons a as ih => simp [sumOver, ih, add_assoc]

theorem sumOver_snoc {M : Type*} [AddMonoid M] (f : σ → α → M) (s : σ) (as : List α) (a : α) :
    S.sumOver f s (as ++ [a]) = S.sumOver f s as + f (S.after s as) a := by
  rw [sumOver_append]
  simp [sumOver]

/-- `f` maps every action of `S` to the action of `T` that matches it, or to none. -/
def Refines (T : GuardedSystem τ β) (R : σ → τ → Prop) (f : α → Option β) : Prop :=
  ∀ s t a, R s t → S.Enabled s a →
    match f a with
    | none => R (S.next s a) t
    | some b => T.Enabled t b ∧ R (S.next s a) (T.next t b)

variable {S}

theorem Refines.run {T : GuardedSystem τ β} {R : σ → τ → Prop} {f : α → Option β}
    (href : S.Refines T R f) {s : σ} {t : τ} (h0 : R s t) (as : List α) (h : S.Runs s as) :
    T.Runs t (as.filterMap f) ∧ R (S.after s as) (T.after t (as.filterMap f)) := by
  induction as generalizing s t with
  | nil => exact ⟨trivial, h0⟩
  | cons a as ih =>
    have hstep := href s t a h0 h.1
    cases hf : f a with
    | none =>
      rw [hf] at hstep
      simpa [hf] using ih hstep h.2
    | some b =>
      rw [hf] at hstep
      obtain ⟨hruns, hR⟩ := ih hstep.2 h.2
      rw [List.filterMap_cons_some hf]
      exact ⟨⟨hstep.1, hruns⟩, hR⟩

theorem Refines.restrict {T : GuardedSystem τ β} {R : σ → τ → Prop} {f : α → Option β}
    (href : S.Refines T R f) {C : σ → α → Prop} {D : τ → β → Prop}
    (hCD : ∀ s t a b, R s t → S.Enabled s a → C s a → f a = some b → D t b) :
    (S.restrict C).Refines (T.restrict D) R f := by
  intro s t a hR ha
  have hstep := href s t a hR ha.1
  cases hf : f a with
  | none =>
    rw [hf] at hstep
    exact hstep
  | some b =>
    rw [hf] at hstep
    exact ⟨⟨hstep.1, hCD s t a b hR ha.1 ha.2 hf⟩, hstep.2⟩

/-- If every step is some run of another system, every run is one. -/
theorem runs_expand {T : GuardedSystem τ β} {R : σ → τ → Prop}
    (hstep : ∀ s t a, R s t → S.Enabled s a →
      ∃ bs, T.Runs t bs ∧ R (S.next s a) (T.after t bs))
    {s : σ} {t : τ} (h0 : R s t) (as : List α) (h : S.Runs s as) :
    ∃ bs, T.Runs t bs ∧ R (S.after s as) (T.after t bs) := by
  induction as generalizing s t with
  | nil => exact ⟨[], trivial, h0⟩
  | cons a as ih =>
    obtain ⟨bs, hbs, hR⟩ := hstep s t a h0 h.1
    obtain ⟨cs, hcs, hend⟩ := ih hR h.2
    refine ⟨bs ++ cs, (T.runs_append t bs cs).mpr ⟨hbs, hcs⟩, ?_⟩
    rw [after_append]
    exact hend

/-- Two runs with the same choices go through related states and are the same run. -/
theorem lockstep {T : GuardedSystem τ α} {R : σ → τ → Prop} {choice : α → β}
    (hstep : ∀ s t a b, R s t → S.Enabled s a → T.Enabled t b → choice a = choice b →
      a = b ∧ R (S.next s a) (T.next t b))
    {s : σ} {t : τ} (h0 : R s t) (as bs : List α) (has : S.Runs s as) (hbs : T.Runs t bs)
    (hchoice : as.map choice = bs.map choice) : as = bs ∧ R (S.after s as) (T.after t bs) := by
  induction as generalizing s t bs with
  | nil =>
    cases bs with
    | nil => exact ⟨rfl, h0⟩
    | cons b bs => cases hchoice
  | cons a as ih =>
    cases bs with
    | nil => cases hchoice
    | cons b bs =>
      obtain ⟨hhead, htail⟩ := List.cons.inj hchoice
      obtain ⟨hab, hR⟩ := hstep s t a b h0 has.1 hbs.1 hhead
      obtain ⟨hrest, hafter⟩ := ih hR bs has.2 hbs.2 htail
      exact ⟨by rw [hab, hrest], hafter⟩

end GuardedSystem

end Framework
