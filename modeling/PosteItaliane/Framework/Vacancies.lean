import PosteItaliane.Framework.GuardedSystem
import Mathlib.Data.Finset.Card

/-!
# Announced vacancies

Agents that give a slot back announce it with a token, and agents that wait for a slot take a
token before they look. Slots are also taken by agents that come in and look for themselves,
so there may be more tokens than vacancies. There are never fewer, as long as an agent with a
token takes a slot only while it is vacant. Slots that nobody has used yet are not announced.
-/

namespace Framework

/-- The `fresh` slots have not been used, the `vacant` ones were given back. A carrier has
taken a token or given a slot back, and has still to act on it. -/
structure Vacancies (A R : Type*) where
  fresh : Finset R
  vacant : Finset R
  tokens : ℕ
  carriers : Finset A

namespace Vacancies

inductive Event (A R : Type*) where
  | enter (r : R)
  | giveBack (a : A) (r : R)
  | post (a : A)
  | fetch (a : A)
  | take (a : A) (r : R)

variable {A R : Type*} [DecidableEq A] [DecidableEq R]

def system : GuardedSystem (Vacancies A R) (Event A R) where
  Enabled g
    | .enter _ => True
    | .giveBack a _ => a ∉ g.carriers
    | .post a => a ∈ g.carriers
    | .fetch a => a ∉ g.carriers ∧ 0 < g.tokens
    | .take a _ => a ∈ g.carriers
  next g
    | .enter r => { g with fresh := g.fresh.erase r, vacant := g.vacant.erase r }
    | .giveBack a r => { g with vacant := insert r g.vacant, carriers := insert a g.carriers }
    | .post a => { g with tokens := g.tokens + 1, carriers := g.carriers.erase a }
    | .fetch a => { g with tokens := g.tokens - 1, carriers := insert a g.carriers }
    | .take a r =>
      { g with
        fresh := g.fresh.erase r
        vacant := g.vacant.erase r
        carriers := g.carriers.erase a }

/-- A carrier takes a slot only while it is vacant. -/
def Careful (g : Vacancies A R) : Event A R → Prop
  | .take _ r => r ∈ g.vacant
  | _ => True

/-- There is a token for every vacancy, or a carrier that will see to it. -/
def Announced (g : Vacancies A R) : Prop := g.vacant.card ≤ g.tokens + g.carriers.card

theorem Announced.step {g : Vacancies A R} (hg : g.Announced) {e : Event A R}
    (he : (system.restrict Careful).Enabled g e) : (system.next g e).Announced := by
  have hg : g.vacant.card ≤ g.tokens + g.carriers.card := hg
  cases e with
  | enter r =>
    show (g.vacant.erase r).card ≤ g.tokens + g.carriers.card
    exact (Finset.card_erase_le).trans hg
  | giveBack a r =>
    have ha : a ∉ g.carriers := he.1
    have hvacant := Finset.card_insert_le r g.vacant
    show (insert r g.vacant).card ≤ g.tokens + (insert a g.carriers).card
    rw [Finset.card_insert_of_notMem ha]
    omega
  | post a =>
    have ha : a ∈ g.carriers := he.1
    have hcarriers := Finset.card_erase_add_one ha
    show g.vacant.card ≤ g.tokens + 1 + (g.carriers.erase a).card
    omega
  | fetch a =>
    obtain ⟨ha, htokens⟩ : a ∉ g.carriers ∧ 0 < g.tokens := he.1
    show g.vacant.card ≤ g.tokens - 1 + (insert a g.carriers).card
    rw [Finset.card_insert_of_notMem ha]
    omega
  | take a r =>
    have ha : a ∈ g.carriers := he.1
    have hr : r ∈ g.vacant := he.2
    have hcarriers := Finset.card_erase_add_one ha
    have hvacant := Finset.card_erase_add_one hr
    show (g.vacant.erase r).card ≤ g.tokens + (g.carriers.erase a).card
    omega

theorem announced_run {g : Vacancies A R} (hg : g.Announced) (es : List (Event A R))
    (h : (system.restrict Careful).Runs g es) : (system.after g es).Announced :=
  (system.restrict Careful).invariant hg (fun _ _ ht he => ht.step he) es h

omit [DecidableEq A] [DecidableEq R] in
/-- No vacancy stays unnoticed. -/
theorem Announced.noticed {g : Vacancies A R} (hg : g.Announced) {r : R} (hr : r ∈ g.vacant) :
    0 < g.tokens ∨ ∃ a, a ∈ g.carriers := by
  have hg : g.vacant.card ≤ g.tokens + g.carriers.card := hg
  have hpos : 0 < g.vacant.card := Finset.card_pos.mpr ⟨r, hr⟩
  by_cases htokens : 0 < g.tokens
  · exact Or.inl htokens
  · exact Or.inr (Finset.card_pos.mp (by omega))

end Vacancies

end Framework
