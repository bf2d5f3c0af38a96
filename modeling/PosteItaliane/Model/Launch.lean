import PosteItaliane.Model.LoadConfig
import PosteItaliane.Model.Termination

/-!
# The launch of a simulation

What the director's `main` does before its loop with the two segments and the command line.
`init_shared_memory` keeps the bytes of a segment that exists, and the semaphores are the
only part that `main` writes in any case. The path of the configuration file is written if
the command line has one, and every operator and user loads what it finds there.
-/

namespace PosteItaliane

open Framework

/-- `MAX_PATH_LENGTH`. -/
def maxPathLength : ℕ := 256

/-- The two segments without their semaphores, as `main` finds them. -/
structure Segments where
  stats : PosteStats
  configurationFile : List Char
  seats : SeatTable
  length_eq : configurationFile.length = maxPathLength

/-- The segments that `ftruncate` fills with zeros. -/
def Segments.fresh : Segments where
  stats := {}
  configurationFile := List.replicate maxPathLength '\x00'
  seats := fun _ => {}
  length_eq := List.length_replicate

/-- The argument of `--config`, out of the arguments after the name of the program. -/
def configFile : List (List Char) → Option (List Char)
  | [flag, path] => if flag = "--config".toList then some path else none
  | _ => none

/-- `load_config` with the defaults in `g_config`. There is none if it exits, because the file
does not open. -/
def loadConfigFile (files : List Char → Option (List Char)) : Option (List Char) →
    Option PosteConfig
  | none => some defaultConfig
  | some [] => some defaultConfig
  | some (c :: path) => (files (c :: path)).map (loadConfig defaultConfig)

/-- The loop over `configuration_file` and the zero after it, which falls outside of the field
if the path has no room. -/
def writePath (field path : List Char) : List Char :=
  ((path.take maxPathLength) ++ field.drop path.length).set path.length '\x00'

/-- A command line, the files it can name, and the site of the configuration it loads. -/
structure Launch (O U : Type) [Fintype O] [Fintype U] where
  argv : List (List Char)
  files : List Char → Option (List Char)
  site : Site O U
  loaded : loadConfigFile files (configFile argv) = some site.config

/-- The number of operators and users is read by the director alone. -/
def Site.withConfig {O U : Type} [Fintype O] [Fintype U] (site : Site O U) (config : PosteConfig) :
    Site O U :=
  { site with
    config := { config with
      numOperators := site.config.numOperators, numUsers := site.config.numUsers } }

variable {O U : Type} [Fintype O] [Fintype U]

/-- `configuration_file` when the children are started. -/
def Launch.configurationFile (L : Launch O U) (prior : Segments) : List Char :=
  match configFile L.argv with
  | none => prior.configurationFile
  | some path => writePath prior.configurationFile path

/-- What `load_config` gives an operator or a user. -/
def Launch.childConfig (L : Launch O U) (prior : Segments) : Option PosteConfig :=
  loadConfigFile L.files (some (cString (L.configurationFile prior)))

variable [DecidableEq O] [DecidableEq U]

/-- The world when the loop begins. -/
def Launch.world (L : Launch O U) (prior : Segments) : World O U :=
  { World.init L.site with
    sh := { (Shared.init : Shared O U) with
      stats := ⟨prior.stats, none⟩
      seats := prior.seats } }

def Launch.start (L : Launch O U) (prior : Segments) : Ending O U :=
  ⟨L.world prior, fun _ => false, none⟩

/-- The site with the configuration of the program that takes the step, if it has started. -/
def EndingAct.siteOf (L : Launch O U) (child : Option PosteConfig) :
    EndingAct O U → Option (Site O U)
  | .step (.oper _ _) | .step (.user _ _) => child.map L.site.withConfig
  | _ => some L.site

/-- The simulation whose children have loaded `child`. -/
def posteLaunch (L : Launch O U) (child : Option PosteConfig) :
    GuardedSystem (Ending O U) (EndingAct O U) where
  Enabled e a :=
    match a.siteOf L child with
    | some site => e.Enabled site a
    | none => False
  next e a :=
    match a.siteOf L child with
    | some site => e.next site a
    | none => e

/-- In fresh segments and with one configuration for all it is the simulation from its start. -/
theorem posteLaunch_fresh (L : Launch O U) :
    posteLaunch L (some L.site.config) = posteEnding L.site ∧
      L.start .fresh = Ending.init L.site := by
  constructor
  · have hsite (a : EndingAct O U) : a.siteOf L (some L.site.config) = some L.site := by
      cases a with
      | step b => cases b <;> rfl
      | kill c => rfl
      | report => rfl
    simp only [posteLaunch, posteEnding, hsite]
  · rfl

end PosteItaliane
