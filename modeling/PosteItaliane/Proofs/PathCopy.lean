import PosteItaliane.Proofs.Leftovers
import Mathlib.Data.List.TakeWhile

/-!
# The path of the configuration file

`main` copies the path one character after the other, for at most as many as the field has,
and then writes a zero at the index of its length. A child reads what comes before the first
zero. A path that leaves room for the zero gets there as it is, and for any other the zero
falls outside of the field.
-/

namespace PosteItaliane

open Framework

/-- The copy loop from the index `i` on, as the characters it writes. -/
def copyWrites : ℕ → List Char → List (ℕ × Char)
  | _, [] => []
  | i, c :: rest => if i < maxPathLength ∧ c ≠ '\x00' then (i, c) :: copyWrites (i + 1) rest else []

/-- Everything that `main` writes to `configuration_file`. -/
def pathWrites (path : List Char) : List (ℕ × Char) :=
  copyWrites 0 path ++ [(path.length, '\x00')]

/-- The field after some writes, of which those outside do not show. -/
def applyWrites (field : List Char) (ws : List (ℕ × Char)) : List Char :=
  ws.foldl (fun field w => field.set w.1 w.2) field

/-- Every write is inside the field, and a child finds the path and loads what the director
has loaded. -/
structure PathIntact (files : List Char → Option (List Char)) (prior : Segments)
    (path : List Char) : Prop where
  inField : ∀ w ∈ pathWrites path, w.1 < maxPathLength
  read : cString (applyWrites prior.configurationFile (pathWrites path)) = path
  loads : loadConfigFile files
      (some (cString (applyWrites prior.configurationFile (pathWrites path)))) =
    loadConfigFile files (some path)

theorem copyWrites_lt (i : ℕ) (path : List Char) :
    ∀ w ∈ copyWrites i path, w.1 < maxPathLength := by
  induction path generalizing i with
  | nil => simp [copyWrites]
  | cons c rest ih =>
    rw [copyWrites]
    split
    · next hroom => exact List.forall_mem_cons.mpr ⟨hroom.1, ih (i + 1)⟩
    · simp

theorem applyWrites_copy {i : ℕ} {field path : List Char} (hfield : field.length = maxPathLength)
    (hi : i ≤ maxPathLength) (hpath : '\x00' ∉ path) :
    applyWrites field (copyWrites i path) =
      field.take i ++ (path.take (maxPathLength - i) ++ field.drop (i + path.length)) := by
  induction path generalizing i field with
  | nil => simp [copyWrites, applyWrites]
  | cons c rest ih =>
    rw [List.mem_cons, not_or] at hpath
    by_cases hroom : i < maxPathLength
    · have hset : (field.set i c).length = maxPathLength := by simpa using hfield
      have hrest := ih hset hroom hpath.2
      have hwrites : copyWrites i (c :: rest) = (i, c) :: copyWrites (i + 1) rest :=
        if_pos ⟨hroom, Ne.symm hpath.1⟩
      have htake : (field.set i c).take (i + 1) = field.take i ++ [c] := by
        rw [List.take_add_one, List.take_set_of_le le_rfl, List.getElem?_set_self (by omega)]
        rfl
      have hdrop : (field.set i c).drop (i + 1 + rest.length) =
          field.drop (i + (c :: rest).length) := by
        rw [List.drop_set_of_lt (by omega), List.length_cons]
        congr 1
        omega
      have hleft : maxPathLength - i = (maxPathLength - (i + 1)) + 1 := by omega
      rw [hwrites, applyWrites, List.foldl_cons]
      show applyWrites (field.set i c) (copyWrites (i + 1) rest) = _
      rw [hrest, htake, hdrop, hleft, List.take_succ_cons]
      simp
    · have hend : i = maxPathLength := by omega
      have hwrites : copyWrites i (c :: rest) = [] := if_neg fun h => hroom h.1
      rw [hwrites, hend, Nat.sub_self, List.take_zero, List.nil_append,
        List.drop_eq_nil_of_le (by omega), List.append_nil, List.take_of_length_le hfield.le]
      rfl

/-- The writes make the field what `writePath` says. -/
theorem applyWrites_path {field path : List Char} (hfield : field.length = maxPathLength)
    (hpath : '\x00' ∉ path) : applyWrites field (pathWrites path) = writePath field path := by
  have hcopy := applyWrites_copy hfield (Nat.zero_le _) hpath
  rw [List.take_zero, List.nil_append, Nat.sub_zero, Nat.zero_add] at hcopy
  rw [pathWrites, writePath, ← hcopy, applyWrites, List.foldl_append]
  rfl

/-- The path of a launch is written by these writes. -/
theorem configurationFile_eq {O U : Type} [Fintype O] [Fintype U] (L : Launch O U)
    (prior : Segments) {path : List Char} (hargv : configFile L.argv = some path)
    (hpath : '\x00' ∉ path) :
    L.configurationFile prior = applyWrites prior.configurationFile (pathWrites path) := by
  rw [Launch.configurationFile, hargv, applyWrites_path prior.length_eq hpath]

/-- The path reaches the children intact exactly when it is shorter than the field. A command
line argument has no zero in it. -/
theorem path_intact_iff (files : List Char → Option (List Char)) (prior : Segments)
    (path : List Char) (hpath : '\x00' ∉ path) :
    PathIntact files prior path ↔ path.length < maxPathLength := by
  constructor
  · intro h
    exact h.inField (path.length, '\x00') (by simp [pathWrites])
  · intro hlen
    have hread : cString (applyWrites prior.configurationFile (pathWrites path)) = path := by
      rw [applyWrites_path prior.length_eq hpath, cString_writePath prior.length_eq,
        List.take_of_length_le hlen.le, cString]
      apply List.takeWhile_eq_self_iff.mpr
      intro c hc
      have hne : c ≠ '\x00' := ne_of_mem_of_not_mem hc hpath
      simpa using hne
    refine ⟨?_, hread, by rw [hread]⟩
    intro w hw
    rcases List.mem_append.mp hw with hcopy | hzero
    · exact copyWrites_lt 0 path w hcopy
    · rw [List.mem_singleton] at hzero
      subst hzero
      exact hlen

theorem path_intact_iff_default : PathIntact (fun _ => some []) Segments.fresh
      "configs/config_timeout.conf".toList ↔
    "configs/config_timeout.conf".toList.length < maxPathLength :=
  path_intact_iff (fun _ => some []) Segments.fresh "configs/config_timeout.conf".toList (by decide)

/-- A path of 256 characters, for which the zero is written behind the field. -/
theorem long_path_outside_field : ¬ ∀ (files : List Char → Option (List Char)) (prior : Segments)
    (path : List Char), '\x00' ∉ path → (loadConfigFile files (some path)).isSome →
    PathIntact files prior path := by
  intro hkeepsPath
  have hpath : '\x00' ∉ List.replicate maxPathLength 'a' := by
    intro hmem
    exact absurd (List.eq_of_mem_replicate hmem) (by decide)
  have hintact := hkeepsPath (fun _ => some []) Segments.fresh (List.replicate maxPathLength 'a')
    hpath rfl
  have hzero := hintact.inField _ (List.mem_append_right _ (List.mem_singleton_self _))
  rw [List.length_replicate] at hzero
  exact lt_irrefl _ hzero

end PosteItaliane
