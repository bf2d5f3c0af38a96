import PosteItaliane.Framework.GuardedSystem
import Mathlib.Logic.Function.Basic

/-!
# A registry of occupied slots

Agents take and release slots, and a table registers at most one agent for each slot. The
table can be wrong in two ways: it can name an agent that is not there, and it can fail to
name one that is. The two directions have different causes. As long as no agent leaves
without releasing, the table never names an absent agent, whatever overlaps and resets
happen. As long as slots are taken only when nobody is registered there and the table is
not cleared, every holder is registered, so no slot is shared.
-/

namespace Framework

/-- The slot each agent holds, and the agent each slot is registered to. -/
structure Registry (A R : Type*) where
  holds : A → Option R
  name : R → Option A

namespace Registry

/-- `leave` is an agent that goes away without releasing; `clear` empties the part of the
table that `p` selects. -/
inductive Event (A R : Type*) where
  | take (a : A) (r : R)
  | release (a : A) (r : R)
  | leave (a : A)
  | clear (p : R → Bool)

variable {A R : Type*} [DecidableEq A] [DecidableEq R]

/-- Taking a slot registers the taker, also over somebody else's name. -/
def system : GuardedSystem (Registry A R) (Event A R) where
  Enabled g
    | .take a _ => g.holds a = none
    | .release a r => g.holds a = some r
    | .leave _ => True
    | .clear _ => True
  next g
    | .take a r =>
      ⟨Function.update g.holds a (some r), Function.update g.name r (some a)⟩
    | .release a r => ⟨Function.update g.holds a none, Function.update g.name r none⟩
    | .leave a => { g with holds := Function.update g.holds a none }
    | .clear p => { g with name := fun r => if p r then none else g.name r }

/-- Nobody leaves without releasing. -/
def Orderly (_ : Registry A R) : Event A R → Prop
  | .leave _ => False
  | _ => True

/-- Slots are taken only when nobody is registered, and the table is never cleared. -/
def Careful (g : Registry A R) : Event A R → Prop
  | .take _ r => g.name r = none
  | .clear _ => False
  | _ => True

/-- Every name in the table is the name of an agent that holds the slot. -/
def NamesPresent (g : Registry A R) : Prop := ∀ r a, g.name r = some a → g.holds a = some r

/-- Every agent that holds a slot is the one registered there. -/
def HoldersNamed (g : Registry A R) : Prop := ∀ a r, g.holds a = some r → g.name r = some a

theorem namesPresent_step (g : Registry A R) (e : Event A R) (hg : g.NamesPresent)
    (he : (system.restrict Orderly).Enabled g e) : (system.next g e).NamesPresent := by
  intro r a hname
  cases e with
  | take b s =>
    have hb : g.holds b = none := he.1
    by_cases hr : r = s
    · subst r
      have hab : b = a := by simpa [system] using hname
      simp [system, hab]
    · have hold := hg r a (by simpa [system, hr] using hname)
      have hab : a ≠ b := by rintro rfl; simp [hb] at hold
      simpa [system, hab] using hold
  | release b s =>
    have hb : g.holds b = some s := he.1
    by_cases hr : r = s
    · subst r
      simp [system] at hname
    · have hold := hg r a (by simpa [system, hr] using hname)
      have hab : a ≠ b := by
        rintro rfl
        exact hr (Option.some.inj (hold.symm.trans hb))
      simpa [system, hab] using hold
  | leave b => exact he.2.elim
  | clear p =>
    have hkeep : ¬ p r = true := by
      intro hp
      simp [system, hp] at hname
    exact hg r a (by simpa [system, hkeep] using hname)

theorem holdersNamed_step (g : Registry A R) (e : Event A R) (hg : g.HoldersNamed)
    (he : (system.restrict Careful).Enabled g e) : (system.next g e).HoldersNamed := by
  intro a r hhold
  cases e with
  | take b s =>
    have hs : g.name s = none := he.2
    by_cases hab : a = b
    · subst a
      have hr : s = r := by simpa [system] using hhold
      simp [system, hr]
    · have hname := hg a r (by simpa [system, hab] using hhold)
      have hr : r ≠ s := by rintro rfl; simp [hs] at hname
      simpa [system, hr] using hname
  | release b s =>
    have hb : g.holds b = some s := he.1
    by_cases hab : a = b
    · subst a
      simp [system] at hhold
    · have hname := hg a r (by simpa [system, hab] using hhold)
      have hr : r ≠ s := by
        rintro rfl
        exact hab (Option.some.inj (hname.symm.trans (hg b r hb)))
      simpa [system, hr] using hname
  | leave b =>
    by_cases hab : a = b
    · subst a
      simp [system] at hhold
    · exact hg a r (by simpa [system, hab] using hhold)
  | clear p => exact he.2.elim

/-- Every holder stays registered. -/
theorem holdersNamed {g : Registry A R} (hg : g.HoldersNamed) (es : List (Event A R))
    (h : (system.restrict Careful).Runs g es) : (system.after g es).HoldersNamed :=
  (system.restrict Careful).invariant hg (fun t e ht he => holdersNamed_step t e ht he) es h

omit [DecidableEq A] [DecidableEq R] in
theorem HoldersNamed.unique {g : Registry A R} (hg : g.HoldersNamed) {a b : A} {r : R}
    (ha : g.holds a = some r) (hb : g.holds b = some r) : a = b :=
  Option.some.inj ((hg a r ha).symm.trans (hg b r hb))

end Registry

end Framework
