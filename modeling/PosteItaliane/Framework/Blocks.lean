import Mathlib.Data.List.Basic
import Mathlib.Logic.Function.Basic

/-!
# Blocks of memory and their handles

A memory maps the handles of the blocks that are allocated to their contents. An access to a
handle that is not allocated, or behind the end of its block, has no result. `realloc` gives
out a block of the new length that begins with the old contents; the handle it was called
with is not allocated any more unless it is the one that is given out.
-/

namespace Framework

/-- The contents of the allocated blocks. -/
abbrev Memory (H α : Type*) := H → Option (List α)

namespace Memory

variable {H α : Type*} [DecidableEq H]

/-- One block and nothing else. -/
def single (h : H) (xs : List α) : Memory H α := fun k => if k = h then some xs else none

def read (m : Memory H α) (h : H) (i : ℕ) : Option α := (m h).bind fun xs => xs[i]?

def write (m : Memory H α) (h : H) (i : ℕ) (x : α) : Option (Memory H α) :=
  (m h).bind fun xs =>
    if i < xs.length then some (Function.update m h (some (xs.set i x))) else none

/-- The contents at the new length. What is added is `junk`. -/
def resize (n : ℕ) (junk : ℕ → α) (xs : List α) : List α :=
  xs.take n ++ (List.range (n - xs.length)).map junk

/-- `realloc` that is called with `h` and returns `h'`. -/
def realloc (m : Memory H α) (h h' : H) (n : ℕ) (junk : ℕ → α) : Option (Memory H α) :=
  (m h).map fun xs => Function.update (Function.update m h none) h' (some (resize n junk xs))

/-- The entries below `n`, each with a read of its own. -/
def readAll (m : Memory H α) (h : H) (n : ℕ) : Option (List α) :=
  (List.range n).mapM fun i => m.read h i

/-- The values one after the other from the index `i` on. -/
def writeAll (m : Memory H α) (h : H) : ℕ → List α → Option (Memory H α)
  | _, [] => some m
  | i, x :: xs => (m.write h i x).bind fun m' => m'.writeAll h (i + 1) xs

@[simp] theorem single_self (h : H) (xs : List α) : single h xs h = some xs := if_pos rfl

@[simp] theorem length_resize (n : ℕ) (junk : ℕ → α) (xs : List α) :
    (resize n junk xs).length = n := by
  simp only [resize, List.length_append, List.length_take, List.length_map, List.length_range]
  omega

theorem resize_of_le {n : ℕ} {xs : List α} (h : xs.length ≤ n) (junk : ℕ → α) :
    resize n junk xs = xs ++ (List.range (n - xs.length)).map junk := by
  rw [resize, List.take_of_length_le h]

theorem realloc_of_free {m : Memory H α} {h : H} (hfree : m h = none) (h' : H) (n : ℕ)
    (junk : ℕ → α) : m.realloc h h' n junk = none := by
  rw [realloc, hfree]
  rfl

theorem realloc_moved {m m' : Memory H α} {h h' : H} {n : ℕ} {junk : ℕ → α} (hmove : h' ≠ h)
    (hm : m.realloc h h' n junk = some m') : m' h = none := by
  obtain ⟨xs, -, rfl⟩ := Option.map_eq_some_iff.mp hm
  rw [Function.update_of_ne hmove.symm, Function.update_self]

theorem writeAll_other {m m' : Memory H α} {h k : H} {i : ℕ} {xs : List α} (hk : k ≠ h)
    (hm : m.writeAll h i xs = some m') : m' k = m k := by
  induction xs generalizing m i with
  | nil =>
    cases hm
    rfl
  | cons x xs ih =>
    obtain ⟨m₁, hwrite, hrest⟩ := Option.bind_eq_some_iff.mp hm
    obtain ⟨ys, -, hwrite⟩ := Option.bind_eq_some_iff.mp hwrite
    split at hwrite
    · cases hwrite
      rw [ih hrest, Function.update_of_ne hk]
    · cases hwrite

/-- Values that fit into what comes after `xs` replace it from its beginning. -/
theorem writeAll_append {m : Memory H α} {h : H} {xs ys zs : List α}
    (hm : m h = some (xs ++ ys)) (hroom : zs.length = ys.length) :
    m.writeAll h xs.length zs = some (Function.update m h (some (xs ++ zs))) := by
  induction zs generalizing m xs ys with
  | nil =>
    have hys : ys = [] := List.eq_nil_of_length_eq_zero hroom.symm
    subst hys
    rw [← hm, Function.update_eq_self]
    rfl
  | cons z zs ih =>
    cases ys with
    | nil => cases hroom
    | cons y ys =>
      have hwrite : m.write h xs.length z =
          some (Function.update m h (some ((xs ++ [z]) ++ ys))) := by
        simp [write, hm]
      have hblock : Function.update m h (some ((xs ++ [z]) ++ ys)) h = some ((xs ++ [z]) ++ ys) :=
        Function.update_self _ _ _
      have hrest := ih hblock (by simpa using hroom)
      rw [writeAll, hwrite, Option.bind_some]
      rw [List.length_append, List.length_singleton] at hrest
      rw [hrest, Function.update_idem, List.append_assoc, List.singleton_append]

omit [DecidableEq H] in
theorem readAll_length {m : Memory H α} {h : H} {xs : List α} (hm : m h = some xs) :
    m.readAll h xs.length = some xs := by
  have hread : (fun i => m.read h i) = fun i => xs[i]? := by
    funext i
    rw [read, hm]
    rfl
  rw [readAll, hread]
  clear hread hm
  induction xs with
  | nil => rfl
  | cons x xs ih =>
    rw [List.length_cons, List.range_succ_eq_map, List.mapM_cons, List.mapM_map]
    simp [Function.comp_def, ih]

omit [DecidableEq H] in
theorem readAll_of_free {m : Memory H α} {h : H} (hm : m h = none) {n : ℕ} (hn : 0 < n) :
    m.readAll h n = none := by
  cases n with
  | zero => cases hn
  | succ n =>
    rw [readAll, List.range_succ_eq_map, List.mapM_cons]
    simp [read, hm]

end Memory

end Framework
