import PosteItaliane.Framework.Monitor
import PosteItaliane.Framework.Mailbox

/-!
# A counter behind a lock and who has incremented it

A value behind a lock has a counter that clients increment and somebody clears. A ghost
tally records how often each client has incremented it since it was last cleared. The
counter is the sum of the tallies, and an assignment turns an increment that is due into one
that is made, or forgets them all.
-/

namespace Framework

/-- A counter of the value, the assignments that increment and clear it, and the clients that
the increments are booked on. -/
structure Tally (P V W K : Type*) [Assignment V W] where
  counter : V → ℕ
  client : P → Option K
  incr : W → Bool
  clear : W → Bool
  counter_assign : ∀ w v, counter (Assignment.assign w v) =
    if clear w then 0 else counter v + if incr w then 1 else 0
  incr_of_clear : ∀ w, clear w = true → incr w = false

namespace Tally

variable {P V W K : Type*} [Assignment V W] (T : Tally P V W K)

theorem counter_le_advance {m : Monitor P V W}
    (hkeep : ∀ p w ws, m.holder = some (p, w :: ws) → T.clear w = false) :
    T.counter m.value ≤ T.counter m.advance.value := by
  cases hholder : m.holder with
  | none => simp [Monitor.advance, hholder]
  | some q =>
    obtain ⟨p, _ | ⟨w, ws⟩⟩ := q
    · rw [Monitor.advance_nil hholder]
    · rw [Monitor.advance_cons hholder, T.counter_assign, hkeep p w ws hholder]
      simp

variable [DecidableEq K]

/-- The tallies after the next assignment of the holder. -/
def record (m : Monitor P V W) (b : K → ℕ) : K → ℕ :=
  match m.holder with
  | some (p, w :: _) =>
    if T.clear w then fun _ => 0
    else if T.incr w then
      match T.client p with
      | some k => Function.update b k (b k + 1)
      | none => b
    else b
  | _ => b

/-- The increments that the client has begun a section for and not yet made. -/
def due (m : Monitor P V W) (k : K) : ℕ :=
  match m.holder with
  | some (p, ws) => if T.client p = some k then ws.countP T.incr else 0
  | none => 0

theorem due_of_outside {m : Monitor P V W} {k : K}
    (h : ∀ p ws, m.holder = some (p, ws) → T.client p ≠ some k) : T.due m k = 0 := by
  unfold due
  cases hholder : m.holder with
  | none => rfl
  | some q =>
    obtain ⟨p, ws⟩ := q
    exact if_neg (h p ws hholder)

theorem due_of_free {m : Monitor P V W} (h : m.Free) (k : K) : T.due m k = 0 := by
  have h : m.holder = none := h
  simp [due, h]

theorem due_enter (m : Monitor P V W) (p : P) (ws : List W) (k : K) :
    T.due (m.enter p ws) k = if T.client p = some k then ws.countP T.incr else 0 := rfl

theorem counter_advance [Fintype K] {m : Monitor P V W} {b : K → ℕ}
    (hclient : ∀ p w ws, m.holder = some (p, w :: ws) → T.incr w = true →
      ∃ k, T.client p = some k)
    (h : T.counter m.value = ∑ k, b k) :
    T.counter m.advance.value = ∑ k, T.record m b k := by
  unfold record
  cases hholder : m.holder with
  | none =>
    simp only [Monitor.advance, hholder]
    exact h
  | some q =>
    obtain ⟨p, _ | ⟨w, ws⟩⟩ := q
    · rw [Monitor.advance_nil hholder]
      exact h
    · rw [Monitor.advance_cons hholder, T.counter_assign]
      dsimp only
      cases hclear : T.clear w with
      | true => simp
      | false =>
        cases hincr : T.incr w with
        | false => simpa using h
        | true =>
          obtain ⟨k, hk⟩ := hclient p w ws hholder hincr
          have hsum := Mailbox.sum_update (fun n : ℕ => n) b k (b k + 1)
          simp only [hk, Bool.false_eq_true, if_false, if_true]
          omega

theorem due_advance_le {m : Monitor P V W} (k : K) : T.due m.advance k ≤ T.due m k := by
  unfold due
  cases hholder : m.holder with
  | none => simp [Monitor.advance, hholder]
  | some q =>
    obtain ⟨p, _ | ⟨w, ws⟩⟩ := q
    · simp [Monitor.advance_nil hholder]
    · rw [Monitor.advance_cons hholder]
      dsimp only
      split
      · exact (List.sublist_cons_self w ws).countP_le
      · exact le_rfl

/-- What a client has made and has due does not grow with an assignment. -/
theorem record_add_due_le {m : Monitor P V W} (b : K → ℕ) (k : K) :
    T.record m b k + T.due m.advance k ≤ b k + T.due m k := by
  unfold record due
  cases hholder : m.holder with
  | none => simp [Monitor.advance, hholder]
  | some q =>
    obtain ⟨p, _ | ⟨w, ws⟩⟩ := q
    · simp [Monitor.advance_nil hholder]
    · rw [Monitor.advance_cons hholder]
      dsimp only
      cases hclear : T.clear w with
      | true =>
        rw [List.countP_cons_of_neg (by simp [T.incr_of_clear w hclear])]
        simp
      | false =>
        cases hincr : T.incr w with
        | false =>
          rw [List.countP_cons_of_neg (by simp [hincr])]
          simp
        | true =>
          rw [List.countP_cons_of_pos hincr]
          cases hp : T.client p with
          | none => simp
          | some j =>
            by_cases hj : j = k
            · subst hj
              simp
              omega
            · simp [hj, Ne.symm hj]

end Tally

end Framework
