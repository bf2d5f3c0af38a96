import PosteItaliane.Model.ChildTable
import PosteItaliane.Proofs.NewUsersReplies

/-!
# The children that are terminated

As long as `realloc` returns the handle it is called with, the table holds the process ids
of all children in the order in which they were started. Once it returns another one, the
handle of `main` is that of a block which is not allocated any more.
-/

namespace PosteItaliane

open Framework Memory

variable {H : Type} [DecidableEq H]

/-- The table of `main` is full, and holds these process ids. -/
structure ChildTable.Holds (t : ChildTable H) (pids : List ℤ) : Prop where
  table : t.mem t.children = some pids
  idx : t.idx = pids.length

/-- The loop over the new children is a sequence of writes. -/
theorem storeChildren_eq (children : H) (pids : List ℤ) (mem : Memory H ℤ) (idx : ℕ) :
    storeChildren children pids (mem, idx) =
      (mem.writeAll children idx pids).map fun mem => (mem, idx + pids.length) := by
  induction pids generalizing mem idx with
  | nil => rfl
  | cons pid pids ih =>
    rw [storeChildren, writeAll, Option.map_bind]
    congr 1
    funext mem
    rw [ih, List.length_cons]
    congr 2
    funext mem
    congr 1
    omega

theorem storeChildren_append {children : H} {mem : Memory H ℤ} {xs ys pids : List ℤ}
    (hm : mem children = some (xs ++ ys)) (hroom : pids.length = ys.length) :
    ∃ mem', storeChildren children pids (mem, xs.length) = some (mem', (xs ++ pids).length) ∧
      mem' children = some (xs ++ pids) := by
  refine ⟨Function.update mem children (some (xs ++ pids)), ?_, Function.update_self _ _ _⟩
  rw [storeChildren_eq, writeAll_append hm hroom, List.length_append]
  rfl

theorem ChildRun.start_holds (r : ChildRun H) :
    ∃ t, r.start = some t ∧ t.children = r.handle ∧ t.numUsers = r.numUsers ∧
      t.Holds r.startup := by
  let entries := (List.range (1 + r.numOperators + r.numUsers)).map r.junk
  have hempty : Memory.single r.handle entries r.handle = some ([] ++ entries) :=
    single_self r.handle entries
  have hroom : r.startup.length = entries.length := by simp [entries, r.length_eq]
  obtain ⟨mem, hstore, hmem⟩ := storeChildren_append hempty hroom
  refine ⟨⟨mem, r.handle, r.startup.length, r.numUsers⟩, ?_, rfl, rfl, hmem, rfl⟩
  rw [List.length_nil, List.nil_append] at hstore
  rw [start, hstore]
  rfl

theorem ChildTable.Holds.grow {t : ChildTable H} {pids : List ℤ} (h : t.Holds pids)
    {numOperators : ℕ} (hfull : pids.length = 1 + numOperators + t.numUsers) {g : Growth H}
    (hsame : g.handle = t.children) :
    ∃ t', t.checkNewUsersQueue numOperators g = some t' ∧ t'.children = t.children ∧
      t'.numUsers = t.numUsers + g.pids.length ∧ t'.Holds (pids ++ g.pids) := by
  have hle : pids.length ≤ 1 + numOperators + (t.numUsers + g.pids.length) := by omega
  have hgrown : Function.update (Function.update t.mem t.children none) t.children
      (some (resize (1 + numOperators + (t.numUsers + g.pids.length)) g.junk pids)) t.children =
      some (pids ++ (List.range (1 + numOperators + (t.numUsers + g.pids.length) -
        pids.length)).map g.junk) := by
    rw [Function.update_self, resize_of_le hle]
  have hroom : g.pids.length = ((List.range (1 + numOperators + (t.numUsers + g.pids.length) -
      pids.length)).map g.junk).length := by
    simp
    omega
  obtain ⟨mem, hstore, hmem⟩ := storeChildren_append hgrown hroom
  refine ⟨⟨mem, t.children, (pids ++ g.pids).length, t.numUsers + g.pids.length⟩, ?_, rfl, rfl,
    hmem, rfl⟩
  simp only [checkNewUsersQueue, realloc, h.table, hsame, h.idx, Option.map_some,
    Option.bind_eq_bind, Option.bind_some]
  rw [hstore]
  rfl

theorem ChildTable.grow_eq_some {t t' : ChildTable H} {numOperators : ℕ} {g : Growth H}
    (h : t.checkNewUsersQueue numOperators g = some t') :
    ∃ mem mem', t.mem.realloc t.children g.handle
        (1 + numOperators + (t.numUsers + g.pids.length)) g.junk = some mem ∧
      mem.writeAll g.handle t.idx g.pids = some mem' ∧
      t' = ⟨mem', t.children, t.idx + g.pids.length, t.numUsers + g.pids.length⟩ := by
  simp only [checkNewUsersQueue, Option.bind_eq_bind] at h
  obtain ⟨mem, hrealloc, h⟩ := Option.bind_eq_some_iff.mp h
  obtain ⟨⟨mem', idx⟩, hstore, h⟩ := Option.bind_eq_some_iff.mp h
  cases h
  rw [storeChildren_eq] at hstore
  obtain ⟨mem'', hwrites, heq⟩ := Option.map_eq_some_iff.mp hstore
  cases heq
  exact ⟨mem, mem', hrealloc, hwrites, rfl⟩

theorem ChildTable.grow_count {t t' : ChildTable H} {numOperators : ℕ} {g : Growth H}
    (h : t.checkNewUsersQueue numOperators g = some t') {queue : List AddUsersMessage}
    {m : AddUsersMessage} {r : NewUsersRequest} (hr : r.nNewUsers = g.pids.length)
    (accepted : Bool) :
    (PosteItaliane.checkNewUsersQueue ⟨t.numUsers, t.idx, false⟩
      ⟨queue, .message m r g.pids.length accepted⟩).count = ⟨t'.numUsers, t'.idx, false⟩ := by
  obtain ⟨mem, mem', -, -, rfl⟩ := grow_eq_some h
  rw [checkNewUsersQueue_of_le rfl (by omega)]
  simp [hr]

theorem ChildTable.moved {t t' : ChildTable H} {numOperators : ℕ} {g : Growth H}
    (hmove : g.handle ≠ t.children) (h : t.checkNewUsersQueue numOperators g = some t') :
    t'.mem t'.children = none ∧ t.idx ≤ t'.idx := by
  obtain ⟨mem, mem', hrealloc, hwrites, rfl⟩ := grow_eq_some h
  refine ⟨?_, Nat.le_add_right _ _⟩
  have hother := writeAll_other hmove.symm hwrites
  rw [realloc_moved hmove hrealloc] at hother
  exact hother

theorem ChildTable.grow_of_free {t : ChildTable H} (h : t.mem t.children = none)
    (numOperators : ℕ) (g : Growth H) : t.checkNewUsersQueue numOperators g = none := by
  simp [checkNewUsersQueue, realloc_of_free h]

/-- `check_new_users_queue` for one request after the other. -/
def ChildTable.growAll (numOperators : ℕ) (t : ChildTable H) (gs : List (Growth H)) :
    Option (ChildTable H) :=
  gs.foldlM (fun t g => t.checkNewUsersQueue numOperators g) t

theorem ChildTable.growAll_cons (numOperators : ℕ) (t : ChildTable H) (g : Growth H)
    (gs : List (Growth H)) : t.growAll numOperators (g :: gs) =
      (t.checkNewUsersQueue numOperators g).bind fun t => t.growAll numOperators gs :=
  List.foldlM_cons

theorem ChildTable.Holds.growAll {t : ChildTable H} {pids : List ℤ} (h : t.Holds pids)
    {numOperators : ℕ} (hfull : pids.length = 1 + numOperators + t.numUsers)
    {gs : List (Growth H)} (hsame : ∀ g ∈ gs, g.handle = t.children) :
    ∃ t', t.growAll numOperators gs = some t' ∧ t'.children = t.children ∧
      t'.Holds (pids ++ gs.flatMap Growth.pids) := by
  induction gs generalizing t pids with
  | nil => exact ⟨t, rfl, rfl, by simpa using h⟩
  | cons g gs ih =>
    obtain ⟨t₁, hgrow, hchildren, husers, hholds⟩ := h.grow hfull (hsame g List.mem_cons_self)
    obtain ⟨t₂, hrest, hchildren₂, hholds₂⟩ := ih hholds
      (by rw [List.length_append]; omega)
      fun g' hg' => by rw [hchildren]; exact hsame g' (List.mem_cons_of_mem g hg')
    refine ⟨t₂, ?_, hchildren₂.trans hchildren, ?_⟩
    · rw [growAll_cons, hgrow]
      exact hrest
    · rw [List.flatMap_cons, ← List.append_assoc]
      exact hholds₂

theorem ChildTable.unreadable_of_free {t : ChildTable H} (h : t.mem t.children = none)
    (hidx : 0 < t.idx) (numOperators : ℕ) (gs : List (Growth H)) :
    (t.growAll numOperators gs).bind (fun t => t.mem.readAll t.children t.idx) = none := by
  cases gs with
  | nil => exact readAll_of_free h hidx
  | cons g gs =>
    rw [growAll_cons, grow_of_free h]
    rfl

theorem ChildTable.Holds.unreadable {t : ChildTable H} {pids : List ℤ} (h : t.Holds pids)
    {numOperators : ℕ} (hfull : pids.length = 1 + numOperators + t.numUsers)
    {gs : List (Growth H)} (hmoves : ∃ g ∈ gs, g.handle ≠ t.children) :
    (t.growAll numOperators gs).bind (fun t => t.mem.readAll t.children t.idx) = none := by
  induction gs generalizing t pids with
  | nil =>
    obtain ⟨g, hg, -⟩ := hmoves
    cases hg
  | cons g gs ih =>
    by_cases hsame : g.handle = t.children
    · obtain ⟨t₁, hgrow, hchildren, husers, hholds⟩ := h.grow hfull hsame
      obtain ⟨g', hg', hmove⟩ := hmoves
      have hin : g' ∈ gs := by
        rcases List.mem_cons.mp hg' with rfl | hin
        · exact absurd hsame hmove
        · exact hin
      have hrest := ih hholds (by rw [List.length_append]; omega) ⟨g', hin, hchildren ▸ hmove⟩
      rw [growAll_cons, hgrow]
      exact hrest
    · rw [growAll_cons]
      cases hgrow : t.checkNewUsersQueue numOperators g with
      | none => rfl
      | some t₁ =>
        obtain ⟨hfree, hidx⟩ := moved hsame hgrow
        exact unreadable_of_free hfree (by rw [h.idx] at hidx; omega) numOperators gs

theorem ChildRun.terminate_eq {r : ChildRun H} {t : ChildTable H} (h : r.start = some t) :
    r.terminate = (t.growAll r.numOperators r.requests).bind fun t =>
      (t.mem.readAll t.children t.idx).bind fun pids => some (pids, pids) := by
  simp only [terminate, h, Option.bind_eq_bind, Option.bind_some, ChildTable.growAll]
  congr 1
  funext t'
  cases t'.mem.readAll t'.children t'.idx <;> rfl

theorem ChildRun.terminate_all_iff (r : ChildRun H) :
    r.terminate = some (r.pids, r.pids) ↔ ∀ g ∈ r.requests, g.handle = r.handle := by
  obtain ⟨t, hstart, hchildren, husers, hholds⟩ := r.start_holds
  have hfull : r.startup.length = 1 + r.numOperators + t.numUsers := by
    rw [husers, r.length_eq]
  rw [ChildRun.terminate_eq hstart]
  constructor
  · intro hterminate g hg
    by_contra hmove
    have hmoves : ∃ g ∈ r.requests, g.handle ≠ t.children := ⟨g, hg, hchildren ▸ hmove⟩
    have hnone := hholds.unreadable hfull hmoves
    rw [← Option.bind_assoc, hnone] at hterminate
    cases hterminate
  · intro hsame
    have hkept : ∀ g ∈ r.requests, g.handle = t.children := by
      intro g hg
      exact (hsame g hg).trans hchildren.symm
    obtain ⟨t', hgrown, -, hholds'⟩ := hholds.growAll hfull hkept
    rw [hgrown, Option.bind_some, hholds'.idx, readAll_length hholds'.table]
    rfl

/-- Every access is to an entry of an allocated block, and `main` kills and waits for exactly
the processes that were started, in order, if and only if no call of `realloc` has moved the
table. -/
theorem children_terminated_iff (r : ChildRun H) :
    r.terminate = some (r.pids, r.pids) ↔ ∀ g ∈ r.requests, g.handle = r.handle :=
  r.terminate_all_iff

/-- One operator, one user, and a request for one more. The table moves from 0 to 1. -/
def oneMoreUser : ChildRun ℕ where
  numOperators := 1
  numUsers := 1
  startup := [100, 101, 102]
  requests := [⟨[103], 1, fun _ => 0⟩]
  handle := 0
  junk := fun _ => 0
  length_eq := rfl

theorem children_not_terminated :
    ¬ ∀ r : ChildRun ℕ, r.terminate = some (r.pids, r.pids) := by
  intro hterminates
  exact absurd (hterminates oneMoreUser) (by decide)

end PosteItaliane
