import PosteItaliane.Model.NewUsers
import PosteItaliane.Model.System

/-!
# The simulation with its clients

`check_new_users_queue` has a part in two systems: in the simulation, where users are added and
nobody asks for them, and at the add-users queue, where they are asked for and nobody is added.
Here the director takes both steps at once, and the `new_users` processes act beside all others.
-/

namespace PosteItaliane

open Framework

structure PosteClients (O U N : Type) where
  world : World O U
  addUsers : AddUsers N

/-- `look` is a call of the director on the add-users queue, and `step` any other step of the
simulation. -/
inductive ClientsAct (O U N : Type) where
  | step (a : Act O U)
  | client (c : N) (a : NewUsers.Act)
  | look (b : CheckNewUsers.Act)

variable {O U N : Type}

/-- The steps in which the director calls on the add-users queue. -/
def Act.atNewUsers : Act O U → Bool
  | .director .noNewUsers | .director .newUsersFail => true
  | .director (.receiveNewUsers _) | .director .replyNewUsers => true
  | _ => false

/-- What the call does in the simulation. After a failing receive the director leaves
`check_new_users_queue` with its answer, which has the status 0. -/
def CheckNewUsers.Act.inWorld : CheckNewUsers.Act → Option (PosteItaliane.Act O U)
  | .receive _ r => some (.director (.receiveNewUsers r.nNewUsers.toNat))
  | .noMessage => some (.director .noNewUsers)
  | .receiveFails _ => none
  | .reply _ status | .replyFails _ status =>
    some (.director (if status = 0 then .newUsersFail else .replyNewUsers))

/-- What a step is for the simulation. -/
def ClientsAct.inWorld : ClientsAct O U N → Option (Act O U)
  | .step a => some a
  | .client _ _ => none
  | .look b => b.inWorld

/-- What a step is for the add-users queue. -/
def ClientsAct.inAddUsers : ClientsAct O U N → Option (AddUsersAct N)
  | .step _ => none
  | .client c a => some (.client c a)
  | .look b => some (.director b)

/-- A negative number of users, which no client asks for, is not represented. -/
def CheckNewUsers.Act.AsksForUsers : CheckNewUsers.Act → Prop
  | .receive _ r => 0 ≤ r.nNewUsers
  | _ => True

instance decidableAsksForUsers : ∀ b : CheckNewUsers.Act, Decidable b.AsksForUsers
  | .receive _ r => inferInstanceAs (Decidable (0 ≤ r.nNewUsers))
  | .noMessage | .receiveFails _ | .reply _ _ | .replyFails _ _ => isTrue trivial

variable [Fintype O] [Fintype U] [DecidableEq O] [DecidableEq U] [DecidableEq N]

namespace PosteClients

def init (site : Site O U) : PosteClients O U N := ⟨World.init site, AddUsers.init⟩

/-- The director is in `check_new_users_queue`, before or after its receive. -/
def Looks (site : Site O U) (w : World O U) (b : CheckNewUsers.Act) : Prop :=
  match b.inWorld with
  | some a => w.Enabled site a
  | none => w.sh.stats.inside ≠ some .direttore ∧ w.dir.phase = .newUsers

instance decidableLooks (site : Site O U) (w : World O U) :
    ∀ b : CheckNewUsers.Act, Decidable (Looks site w b)
  | .receive _ r => inferInstanceAs
      (Decidable (w.Enabled site (.director (.receiveNewUsers r.nNewUsers.toNat))))
  | .noMessage => inferInstanceAs (Decidable (w.Enabled site (.director .noNewUsers)))
  | .receiveFails _ => inferInstanceAs (Decidable (_ ∧ _))
  | .reply _ status | .replyFails _ status => inferInstanceAs (Decidable
      (w.Enabled site (.director (if status = 0 then .newUsersFail else .replyNewUsers))))

def Enabled (site : Site O U) (clients : Clients N) (s : PosteClients O U N) :
    ClientsAct O U N → Prop
  | .step a => s.world.Enabled site a ∧ a.atNewUsers = false
  | .client c a => s.addUsers.Enabled clients (.client c a)
  | .look b => s.addUsers.Enabled clients (.director b) ∧ Looks site s.world b ∧ b.AsksForUsers

def next (site : Site O U) (clients : Clients N) (s : PosteClients O U N)
    (a : ClientsAct O U N) : PosteClients O U N where
  world := (a.inWorld.map (s.world.next site)).getD s.world
  addUsers := (a.inAddUsers.map (s.addUsers.next clients)).getD s.addUsers

end PosteClients

/-- All processes of a simulation and its clients. -/
def posteClients (site : Site O U) (clients : Clients N) :
    GuardedSystem (PosteClients O U N) (ClientsAct O U N) where
  Enabled := PosteClients.Enabled site clients
  next := PosteClients.next site clients

instance decidablePosteClients (site : Site O U) (clients : Clients N) (s : PosteClients O U N) :
    ∀ a : ClientsAct O U N, Decidable ((posteClients site clients).Enabled s a)
  | .step a => inferInstanceAs (Decidable (s.world.Enabled site a ∧ a.atNewUsers = false))
  | .client c a => inferInstanceAs (Decidable ((addUsers clients).Enabled s.addUsers (.client c a)))
  | .look b => inferInstanceAs (Decidable ((addUsers clients).Enabled s.addUsers (.director b) ∧
      PosteClients.Looks site s.world b ∧ b.AsksForUsers))

end PosteItaliane
