import PosteItaliane.Framework.Blocks
import Mathlib.Data.Int.Notation

/-!
# The table of children

`main` allocates the table of process ids and fills it, `check_new_users_queue` makes it
larger for every request, and at the end `main` reads it twice. The handle of the table is
a parameter of the function, passed by value; the index is passed by its address.
-/

namespace PosteItaliane

open Framework

variable {H : Type} [DecidableEq H]

/-- An add-users request: what the `start_process` calls return, the handle that `realloc`
returns and what is in the entries it adds. -/
structure Growth (H : Type) where
  pids : List ℤ
  handle : H
  junk : ℕ → ℤ

/-- The memory, and what `main` knows of the table. -/
structure ChildTable (H : Type) where
  mem : Memory H ℤ
  children : H
  idx : ℕ
  numUsers : ℕ

/-- `children[idx++] = start_process(..);` for every process that is started. -/
def storeChildren (children : H) : List ℤ → Memory H ℤ × ℕ → Option (Memory H ℤ × ℕ)
  | [], s => some s
  | pid :: pids, (mem, idx) =>
    (mem.write children idx pid).bind fun mem => storeChildren children pids (mem, idx + 1)

/-- `check_new_users_queue` for a request. The new handle is assigned to the parameter, so
`main` goes on with its own. -/
def ChildTable.checkNewUsersQueue (numOperators : ℕ) (t : ChildTable H) (g : Growth H) :
    Option (ChildTable H) := do
  let numUsers := t.numUsers + g.pids.length
  let mem ← t.mem.realloc t.children g.handle (1 + numOperators + numUsers) g.junk
  let (mem, idx) ← storeChildren g.handle g.pids (mem, t.idx)
  some { t with mem, idx, numUsers }

/-- The processes that are started before the loop, the requests in it, and what `malloc`
returns. -/
structure ChildRun (H : Type) where
  numOperators : ℕ
  numUsers : ℕ
  startup : List ℤ
  requests : List (Growth H)
  handle : H
  junk : ℕ → ℤ
  length_eq : startup.length = 1 + numOperators + numUsers

/-- The table when the loop begins. -/
def ChildRun.start (r : ChildRun H) : Option (ChildTable H) :=
  let size := 1 + r.numOperators + r.numUsers
  (storeChildren r.handle r.startup
    (Memory.single r.handle ((List.range size).map r.junk), 0)).map fun (mem, idx) =>
      ⟨mem, r.handle, idx, r.numUsers⟩

/-- The process ids that `main` kills and the ones it waits for. There are none if an access
on the way is not one to an entry of an allocated block. -/
def ChildRun.terminate (r : ChildRun H) : Option (List ℤ × List ℤ) := do
  let t ← r.start
  let t ← r.requests.foldlM (fun t g => t.checkNewUsersQueue r.numOperators g) t
  let killed ← t.mem.readAll t.children t.idx
  let waited ← t.mem.readAll t.children t.idx
  some (killed, waited)

/-- What all calls of `start_process` return, in order. -/
def ChildRun.pids (r : ChildRun H) : List ℤ := r.startup ++ r.requests.flatMap Growth.pids

end PosteItaliane
