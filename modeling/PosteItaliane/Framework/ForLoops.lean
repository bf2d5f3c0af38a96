import Mathlib.Data.List.Range

/-!
# Loops over the indices of an array

A `for` loop that returns at the first index that passes a test, and one that collects the
indices that pass it, each with the list of the array positions it visits.
-/

namespace Framework

/-- `for (k = i; k < i + n; k++) if (p k) return k;` with the indices it visits. -/
def scan (p : ℕ → Bool) : ℕ → ℕ → Option ℕ × List ℕ
  | _, 0 => (none, [])
  | i, n + 1 =>
    if p i then (some i, [i])
    else
      let (found, visited) := scan p (i + 1) n
      (found, i :: visited)

/-- `for (k = i; k < i + n; k++) if (p k) out[count++] = k;` with the positions of `out` it
writes. -/
def collect (p : ℕ → Bool) : ℕ → ℕ → ℕ → List ℕ × List ℕ
  | _, 0, _ => ([], [])
  | i, n + 1, count =>
    if p i then
      let (out, written) := collect p (i + 1) n (count + 1)
      (i :: out, count :: written)
    else collect p (i + 1) n count

theorem scan_found (p : ℕ → Bool) (i n : ℕ) : (scan p i n).1 = (List.range' i n).find? p := by
  induction n generalizing i with
  | zero => rfl
  | succ n ih =>
    rw [List.range'_succ]
    cases hp : p i with
    | true => simp [scan, hp]
    | false => simp [scan, hp, ih]

theorem scan_visited (p : ℕ → Bool) (i n : ℕ) : ∀ k ∈ (scan p i n).2, i ≤ k ∧ k < i + n := by
  induction n generalizing i with
  | zero => simp [scan]
  | succ n ih =>
    intro k hk
    cases hp : p i with
    | true =>
      have hki : k = i := by simpa [scan, hp] using hk
      omega
    | false =>
      have hcases : k = i ∨ k ∈ (scan p (i + 1) n).2 := by simpa [scan, hp] using hk
      rcases hcases with rfl | hrest
      · omega
      · have := ih (i + 1) k hrest
        omega

theorem collect_out (p : ℕ → Bool) (i n count : ℕ) :
    (collect p i n count).1 = (List.range' i n).filter p := by
  induction n generalizing i count with
  | zero => rfl
  | succ n ih =>
    rw [List.range'_succ]
    cases hp : p i with
    | true => simp [collect, hp, ih]
    | false => simp [collect, hp, ih]

theorem collect_written (p : ℕ → Bool) (i n count : ℕ) :
    (collect p i n count).2 = List.range' count (collect p i n count).1.length := by
  induction n generalizing i count with
  | zero => rfl
  | succ n ih =>
    cases hp : p i with
    | true => simp [collect, hp, ih, List.range'_succ]
    | false => simp [collect, hp, ih]

theorem collect_length_le (p : ℕ → Bool) (i n count : ℕ) :
    (collect p i n count).1.length ≤ n := by
  rw [collect_out]
  simpa using List.length_filter_le p (List.range' i n)

end Framework
