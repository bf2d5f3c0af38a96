import PosteItaliane.Model.Operatore
import PosteItaliane.Model.Utente
import PosteItaliane.Model.ErogatoreTicket
import PosteItaliane.Model.Direttore

/-!
# The whole simulation

All processes of a site over one shared state. A process inside a critical section takes
no step of its own; `section` executes the next assignment of whoever holds `stats_lock`.
-/

namespace PosteItaliane

open Framework

/-- The state of a simulation. -/
structure World (O U : Type) where
  sh : Shared O U
  opers : O → Operatore.Local
  users : U → Utente.Local
  ticket : ErogatoreTicket.Local
  dir : Direttore.Local

/-- One step of one process. -/
inductive Act (O U : Type) where
  | oper (o : O) (a : Operatore.Act)
  | user (u : U) (a : Utente.Act)
  | ticket (a : ErogatoreTicket.Act)
  | director (a : Direttore.Act U)
  | «section»

variable {O U : Type} [Fintype O] [Fintype U] [DecidableEq O] [DecidableEq U]

/-- Every process of the configuration has been created and nothing has happened yet. -/
def World.init (site : Site O U) : World O U where
  sh := Shared.init
  opers := fun _ => ⟨.boot, 0⟩
  users := fun u => ⟨if u ∈ site.initialUsers then .boot else .notStarted, false, []⟩
  ticket := ⟨.idle, 0⟩
  dir := ⟨.loop, 0, 0, site.config.numUsers, []⟩

/-- A process that the director creates did not exist before. -/
def World.CanStart (w : World O U) : Direttore.Act U → Prop
  | .startUser u _ => (w.users u).phase = .notStarted
  | _ => True

instance (w : World O U) (a : Direttore.Act U) : Decidable (w.CanStart a) := by
  rcases a with _ | _ <;> (dsimp only [World.CanStart]; infer_instance)

def World.Enabled (site : Site O U) (w : World O U) : Act O U → Prop
  | .oper o a => w.sh.stats.inside ≠ some (.operatore o) ∧
      Operatore.Enabled site o (w.opers o) w.sh a
  | .user u a => w.sh.stats.inside ≠ some (.utente u) ∧
      Utente.Enabled site u (w.users u) w.sh a
  | .ticket a => ErogatoreTicket.Enabled w.ticket w.sh a
  | .director a => w.sh.stats.inside ≠ some .direttore ∧
      Direttore.Enabled site w.dir w.sh a ∧ w.CanStart a
  | .section => ¬ w.sh.stats.Free

instance (site : Site O U) (w : World O U) (a : Act O U) : Decidable (w.Enabled site a) := by
  rcases a with _ | _ <;> (dsimp only [World.Enabled]; infer_instance)

/-- The users a step of the director creates. -/
def World.usersAfter (w : World O U) : Direttore.Act U → U → Utente.Local
  | .startUser u _ => Function.update w.users u { w.users u with phase := .boot }
  | _ => w.users

def World.next (site : Site O U) (w : World O U) : Act O U → World O U
  | .oper o a =>
    { w with
      opers := Function.update w.opers o (Operatore.next site o (w.opers o) w.sh a).1
      sh := (Operatore.next site o (w.opers o) w.sh a).2 }
  | .user u a =>
    { w with
      users := Function.update w.users u (Utente.next site u (w.users u) w.sh a).1
      sh := (Utente.next site u (w.users u) w.sh a).2 }
  | .ticket a =>
    { w with
      ticket := (ErogatoreTicket.next site w.ticket w.sh a).1
      sh := (ErogatoreTicket.next site w.ticket w.sh a).2 }
  | .director a =>
    { w with
      users := w.usersAfter a
      dir := (Direttore.next site w.dir w.sh a).1
      sh := (Direttore.next site w.dir w.sh a).2 }
  | .section => { w with sh := { w.sh with stats := w.sh.stats.advance } }

theorem opers_next {β : Type*} (f : O → Operatore.Local → β) (site : Site O U) (w : World O U)
    (o : O) (a : Operatore.Act) : (fun p => f p ((w.next site (.oper o a)).opers p)) =
      Function.update (fun p => f p (w.opers p)) o
        (f o (Operatore.next site o (w.opers o) w.sh a).1) :=
  funext fun p => Function.apply_update f w.opers o _ p

theorem users_next {β : Type*} (f : U → Utente.Local → β) (site : Site O U) (w : World O U)
    (u : U) (a : Utente.Act) : (fun v => f v ((w.next site (.user u a)).users v)) =
      Function.update (fun v => f v (w.users v)) u
        (f u (Utente.next site u (w.users u) w.sh a).1) :=
  funext fun v => Function.apply_update f w.users u _ v

theorem users_director {β : Type*} (f : U → Utente.Phase → β)
    (hboot : ∀ u, f u .boot = f u .notStarted) (site : Site O U) {w : World O U}
    {a : Direttore.Act U} (ha : w.CanStart a) (v : U) :
    f v ((w.next site (.director a)).users v).phase = f v (w.users v).phase := by
  cases a <;> try rfl
  case startUser u n =>
    have hphase : (w.users u).phase = .notStarted := ha
    by_cases hv : v = u
    · subst v
      simp [World.next, World.usersAfter, hphase, hboot]
    · simp [World.next, World.usersAfter, hv]

/-- The simulation of a site. -/
def poste (site : Site O U) : GuardedSystem (World O U) (Act O U) where
  Enabled := World.Enabled site
  next := World.next site

instance (site : Site O U) (w : World O U) (a : Act O U) :
    Decidable ((poste site).Enabled w a) :=
  inferInstanceAs (Decidable (w.Enabled site a))

end PosteItaliane
