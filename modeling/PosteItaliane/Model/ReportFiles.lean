import PosteItaliane.Framework.MachineInts
import Mathlib.Logic.Function.Basic

/-!
# The files of the exports

`write_stats` with the directory it writes to. It opens one name after the other for
reading until an open fails, and opens the name it ends with for writing. What it prints is
`FinalReport`; here it is any value.
-/

namespace PosteItaliane

open Framework MachineInts

/-- The files that exist, with their contents. All of them can be read. -/
abbrev Directory (C : Type) := List Char → Option C

/-- `%d`. -/
def decimalText (n : ℤ) : List Char :=
  if n < 0 then '-' :: Nat.toDigits 10 n.natAbs else Nat.toDigits 10 n.natAbs

/-- What `snprintf` leaves in `filename`, which has room for every `int`. -/
def reportName (counter : ℤ) : List Char :=
  if counter = 0 then "./tmp/final_stats.csv".toList
  else "./tmp/final_stats_".toList ++ (decimalText counter ++ ".csv".toList)

variable {C : Type}

/-- The `do` loop of `write_stats`: `filename` when the loop ends, if it does so within `fuel`
iterations. `counter` is an `int`. -/
def searchName (d : Directory C) : ℕ → ℤ → Option (List Char)
  | 0, _ => none
  | fuel + 1, counter =>
    let filename := reportName counter
    if (d filename).isSome then searchName d fuel (wrap 32 (counter + 1)) else some filename

/-- The ways out of `write_stats`. -/
inductive ExportExit where
  | noFolder
  | notOpened
  | written

/-- `write_stats` on a directory, if its loop ends within `fuel` iterations. -/
def exportStats (fuel : ℕ) (d : Directory C) (exit : ExportExit) (content : C) :
    Option (Directory C) :=
  match exit with
  | .noFolder => some d
  | .notOpened => (searchName d fuel 0).map fun _ => d
  | .written => (searchName d fuel 0).map fun filename => Function.update d filename (some content)

/-- Successive exports that are all written. -/
def exportAll (fuel : ℕ) : Directory C → List C → Option (Directory C)
  | d, [] => some d
  | d, content :: rest =>
    (exportStats fuel d .written content).bind fun d' => exportAll fuel d' rest

end PosteItaliane
