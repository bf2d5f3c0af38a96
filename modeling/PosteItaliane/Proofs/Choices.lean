import PosteItaliane.Proofs.Steps
import PosteItaliane.Proofs.UserSeats

/-!
# What a process has chosen

The process id that a user has read and will send its request to, the seats that it has found,
and the seat that an operator has found or taken.
-/

namespace PosteItaliane

open Framework

/-- The service, the seat and the process id a request will be sent with. -/
def Utente.Phase.addressed : Utente.Phase → Option (ServiceId × ℕ × ℕ)
  | .readStart x k op => some (x.service, k, op)
  | .sendRequest x k op _ => some (x.service, k, op)
  | _ => none

/-- The seats that `find_valid_seats` has returned for a service. -/
def Utente.Phase.validSeats : Utente.Phase → Option (ServiceId × List ℕ)
  | .takeSeat x valid => some (x.service, valid)
  | .nap x valid => some (x.service, valid)
  | .napOver x valid => some (x.service, valid)
  | .tryFreed x valid => some (x.service, valid)
  | .readOperator x k => some (x.service, [k])
  | _ => none

/-- The seat an operator has found or taken. -/
def Operatore.Phase.chosenSeat : Operatore.Phase → Option ℕ
  | .takeFound k => some k
  | p => p.currentSeat

theorem Operatore.Phase.chosenSeat_of_currentSeat {p : Operatore.Phase} {k : ℕ}
    (h : p.currentSeat = some k) : p.chosenSeat = some k := by
  cases p <;> first | exact h | cases h

theorem Operatore.Phase.chosenSeat_eq_none {p : Operatore.Phase} (h : p.inWorkLoop = false) :
    p.chosenSeat = none := by
  cases p <;> first | rfl | cases h

theorem Utente.Phase.validSeats_eq_none {p : Utente.Phase} (h : p.inHandleService = false) :
    p.validSeats = none := by
  cases p <;> first | rfl | cases h

variable {O U : Type} [Fintype O] [Fintype U] [DecidableEq O] [DecidableEq U]

theorem addressed_step (site : Site O U) {w : World O U} {a : Act O U} (ha : w.Enabled site a)
    {u : U} {s : ServiceId} {k pid : ℕ}
    (h : ((w.next site a).users u).phase.addressed = some (s, k, pid)) :
    (w.users u).phase.addressed = some (s, k, pid) ∨
      ∃ x, a = .user u (.readOperator x k) ∧ (w.users u).phase = .readOperator x k ∧
        s = x.service ∧ pid = (w.sh.seats k).operatorProcess := by
  rcases user_step site ha u with hu | ⟨b, rfl, he, hu⟩ | ⟨n, rfl, -, hu⟩
  · rw [hu] at h
    exact Or.inl h
  · rw [hu] at h
    cases b <;> simp only [Utente.Enabled] at he <;> simp only [Utente.next] at h <;>
      grind [Utente.Phase.addressed]
  · rw [hu] at h
    cases h

theorem validSeats_step (site : Site O U) {w : World O U} {a : Act O U} (ha : w.Enabled site a)
    {u : U} {s : ServiceId} {valid : List ℕ}
    (h : ((w.next site a).users u).phase.validSeats = some (s, valid)) :
    (∃ valid', (w.users u).phase.validSeats = some (s, valid') ∧ ∀ k ∈ valid, k ∈ valid') ∨
      ∀ k ∈ valid, (w.sh.seats k).serviceId = s := by
  rcases user_step site ha u with hu | ⟨b, rfl, he, hu⟩ | ⟨n, rfl, -, hu⟩
  · rw [hu] at h
    exact Or.inl ⟨valid, h, fun _ hk => hk⟩
  · rw [hu] at h
    cases b
    case findSeats x =>
      right
      intro k hk
      cases h
      exact (mem_findValidSeats.mp hk).2.1
    case takeSeat x valid' k =>
      left
      cases h
      refine ⟨valid', by rw [he.1]; rfl, ?_⟩
      intro j hj
      rw [List.mem_singleton.mp hj]
      exact (freeUserSeat_eq_some he.2).1
    all_goals
      left
      refine ⟨valid, ?_, fun _ hk => hk⟩
      simp only [Utente.Enabled] at he
      simp only [Utente.next] at h
      grind [Utente.Phase.validSeats]
  · rw [hu] at h
    cases h

theorem chosenSeat_step (site : Site O U) {w : World O U} {a : Act O U} (ha : w.Enabled site a)
    {o : O} {k : ℕ} (h : ((w.next site a).opers o).phase.chosenSeat = some k) :
    (w.opers o).phase.chosenSeat = some k ∨ (w.sh.seats k).serviceId = site.userService o := by
  rcases oper_step site ha o with ho | ⟨b, rfl, he, ho⟩
  · rw [ho] at h
    exact Or.inl h
  · rw [ho] at h
    cases b
    case takeFree j =>
      cases h
      exact Or.inr (findSeat_eq_some he.2).2.2
    case foundSeat j =>
      cases h
      exact Or.inr (findSeat_eq_some he.2).2.2
    all_goals
      left
      simp only [Operatore.Enabled] at he
      simp only [Operatore.next] at h
      grind [Operatore.Phase.chosenSeat, Operatore.Phase.currentSeat]

end PosteItaliane
