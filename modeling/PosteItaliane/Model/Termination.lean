import PosteItaliane.Model.System

/-!
# The end of a simulation

What the director's `main` does after its loop: it kills its children, waits until all of
them are gone, and prints and exports the statistics. A child can be stopped at any point,
also inside a critical section; the lock it holds is then never given back, and the director
does not ask for it.
-/

namespace PosteItaliane

open Framework

/-- The processes in the director's table of children. -/
inductive Child (O U : Type) where
  | erogatore
  | operatore (o : O)
  | utente (u : U)
  deriving DecidableEq

inductive ExitMode where
  | explode
  | timeout
  deriving DecidableEq

/-- The statistics of the final report, and what `write_stats` exports with them. -/
structure FinalReport where
  exitMode : ExitMode
  config : PosteConfig
  numUsers : ℤ
  stats : PosteStats

/-- The contents of the file. The exit mode is worked out from the current day. -/
def writeStats (config : PosteConfig) (numUsers : ℤ) (stats : PosteStats) : FinalReport where
  exitMode := if config.explodeMax < stats.today.lateUsers then .explode else .timeout
  config := config
  numUsers := numUsers
  stats := stats

/-- A simulation with the children that have been stopped and the report, if it is made. -/
structure Ending (O U : Type) where
  world : World O U
  killed : Child O U → Bool
  report : Option FinalReport

inductive EndingAct (O U : Type) where
  | step (a : Act O U)
  | kill (c : Child O U)
  | report

variable {O U : Type} [Fintype O] [Fintype U] [DecidableEq O] [DecidableEq U]

def Proc.child : Proc O U → Option (Child O U)
  | .direttore => none
  | .operatore o => some (.operatore o)
  | .utente u => some (.utente u)

/-- The child that takes a step. -/
def World.childOf (w : World O U) : Act O U → Option (Child O U)
  | .oper o _ => some (.operatore o)
  | .user u _ => some (.utente u)
  | .ticket _ => some .erogatore
  | .director _ => none
  | .section => w.sh.stats.inside.bind Proc.child

/-- Every child that was started is stopped. -/
def Ending.AllKilled (e : Ending O U) : Prop :=
  e.killed .erogatore = true ∧ (∀ o, e.killed (.operatore o) = true) ∧
    ∀ u, (e.world.users u).phase ≠ .notStarted → e.killed (.utente u) = true

instance decidableAllKilled (e : Ending O U) : Decidable e.AllKilled :=
  inferInstanceAs (Decidable (_ ∧ _ ∧ _))

def Ending.init (site : Site O U) : Ending O U := ⟨World.init site, fun _ => false, none⟩

def Ending.Enabled (site : Site O U) (e : Ending O U) : EndingAct O U → Prop
  | .step a => e.world.Enabled site a ∧ (e.world.childOf a).all (fun c => !e.killed c) = true
  | .kill c => e.world.dir.phase = .over ∧ e.report = none ∧ e.killed c = false
  | .report => e.world.dir.phase = .over ∧ e.report = none ∧ e.AllKilled

instance decidableEnding (site : Site O U) (e : Ending O U) (a : EndingAct O U) :
    Decidable (e.Enabled site a) := by
  rcases a with _ | _ <;> (dsimp only [Ending.Enabled]; infer_instance)

/-- The report of the present state. -/
def Ending.finalReport (site : Site O U) (e : Ending O U) : FinalReport :=
  writeStats site.config e.world.dir.numUsers e.world.sh.stats.value

def Ending.next (site : Site O U) (e : Ending O U) : EndingAct O U → Ending O U
  | .step a => { e with world := e.world.next site a }
  | .kill c => { e with killed := Function.update e.killed c true }
  | .report => { e with report := some (e.finalReport site) }

/-- A simulation up to its final report. -/
def posteEnding (site : Site O U) : GuardedSystem (Ending O U) (EndingAct O U) where
  Enabled := Ending.Enabled site
  next := Ending.next site

instance decidablePosteEnding (site : Site O U) (e : Ending O U) (a : EndingAct O U) :
    Decidable ((posteEnding site).Enabled e a) :=
  inferInstanceAs (Decidable (e.Enabled site a))

/-- The step of the simulation, if it is one. -/
def EndingAct.step? : EndingAct O U → Option (Act O U)
  | .step a => some a
  | _ => none

/-- Up to the report the simulation runs as it does without an end. -/
theorem posteEnding_refines (site : Site O U) :
    (posteEnding site).Refines (poste site) (fun e w => e.world = w) EndingAct.step? := by
  rintro e w a rfl ha
  cases a with
  | step a => exact ⟨ha.1, rfl⟩
  | kill c => rfl
  | report => rfl

theorem ending_world {site : Site O U} {es : List (EndingAct O U)}
    (h : (posteEnding site).Runs (Ending.init site) es) :
    (poste site).Runs (World.init site) (es.filterMap EndingAct.step?) ∧
      ((posteEnding site).after (Ending.init site) es).world =
        (poste site).after (World.init site) (es.filterMap EndingAct.step?) :=
  (posteEnding_refines site).run (t := World.init site) rfl es h

theorem ending_steps (site : Site O U) (w : World O U) (as : List (Act O U)) :
    (posteEnding site).after ⟨w, fun _ => false, none⟩ (as.map .step) =
        ⟨(poste site).after w as, fun _ => false, none⟩ ∧
      ((posteEnding site).Runs ⟨w, fun _ => false, none⟩ (as.map .step) ↔
        (poste site).Runs w as) := by
  induction as generalizing w with
  | nil => exact ⟨rfl, Iff.rfl⟩
  | cons a as ih =>
    obtain ⟨hafter, hruns⟩ := ih (w.next site a)
    have hstep : (posteEnding site).Enabled ⟨w, fun _ => false, none⟩ (.step a) ↔
        w.Enabled site a := and_iff_left (by cases w.childOf a <;> rfl)
    exact ⟨hafter, and_congr hstep hruns⟩

end PosteItaliane
