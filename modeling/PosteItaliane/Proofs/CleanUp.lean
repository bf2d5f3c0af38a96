import PosteItaliane.Model.DirectorMain
import PosteItaliane.Model.System
import PosteItaliane.Proofs.ChildTable

/-!
# What a failure of the director leaves behind

The normal path kills the children in the table, waits for them and removes everything it has
opened. A failure ends `main` where it happens, and all that was started and created by then
stays; so do the children when their table has moved.
-/

namespace PosteItaliane

open Framework

/-- Every child was killed and waited for, and what did not exist `before` was removed. -/
structure LeavesNothing (before : Resource → Bool) (s : MainState) : Prop where
  children : s.children = 0
  resources : ∀ r, s.opened r = true → before r = false → s.removed r = true

/-- The table of `main` has moved. -/
def TableMoves (as : List MainAct) : Prop := ∃ n, .request n true ∈ as

/-- Nothing has been removed, every child that was started is there, and the table holds all of
them or has moved. -/
structure MainRunning (as : List MainAct) (s : MainState) : Prop where
  stage : s.stage = .ended ∨ ∃ todo, s.stage = .calls todo
  forks : ∀ todo, s.stage = .calls todo → .fork ∈ todo ∨ .succeeds .fork ∈ as
  children : s.children = as.count (.succeeds .fork)
  listed : s.listed = if s.moved then 0 else s.children
  removed : ∀ r, s.removed r = false

/-- The clean-up has come so far. -/
def MainLeaving (s : MainState) : Prop :=
  match s.stage with
  | .calls _ => False
  | .terminating => 0 < s.children ∧ s.listed = if s.moved then 0 else s.children
  | .cleanUp rest => (s.children = 0 ↔ s.moved = false) ∧ ∀ r, s.removed r = true ∨ r ∈ rest
  | .ended => (s.children = 0 ↔ s.moved = false) ∧ ∀ r, s.removed r = true

/-- What is known of the state from the calls. -/
structure MainTrace (as : List MainAct) (s : MainState) : Prop where
  opened : ∀ r, s.opened r = true ↔ ∃ c, .succeeds c ∈ as ∧ c.opens = some r
  moved : s.moved = true ↔ TableMoves as
  started : .leave ∈ as → .succeeds .fork ∈ as
  running : .leave ∉ as → MainRunning as s
  leaving : .leave ∈ as → MainLeaving s

theorem mem_cleanUpOrder (r : Resource) : r ∈ cleanUpOrder := by
  cases r <;> decide

theorem MainTrace.opened_step {as : List MainAct} {s : MainState} (h : MainTrace as s)
    (a : MainAct) (r : Resource) : (s.next a).opened r = true ↔
      ∃ c, .succeeds c ∈ as ++ [a] ∧ c.opens = some r := by
  have hold := h.opened r
  cases a with
  | succeeds c =>
    cases hopens : c.opens with
    | none =>
      simp only [MainState.next, hopens, hold]
      grind
    | some q =>
      simp only [MainState.next, hopens, Function.update_apply]
      grind
  | _ =>
    simp only [MainState.next, hold]
    grind

theorem nextCall_eq_some {s : MainStage} {c : MainCall} :
    s.nextCall = some c ↔ ∃ todo, s = .calls (c :: todo) := by
  constructor
  · intro h
    cases s with
    | calls todo =>
      cases todo with
      | nil => cases h
      | cons c' todo =>
        cases h
        exact ⟨todo, rfl⟩
    | _ => cases h
  · rintro ⟨todo, rfl⟩
    rfl

theorem nextRemoval_eq_some {s : MainStage} {r : Resource} :
    s.nextRemoval = some r ↔ ∃ rest, s = .cleanUp (r :: rest) := by
  constructor
  · intro h
    cases s with
    | cleanUp rest =>
      cases rest with
      | nil => cases h
      | cons r' rest =>
        cases h
        exact ⟨rest, rfl⟩
    | _ => cases h
  · rintro ⟨rest, rfl⟩
    rfl

theorem stage_of_succeeds {s : MainState} {c : MainCall} (ha : s.Enabled (.succeeds c)) :
    ∃ todo, s.stage = .calls (c :: todo) := by
  apply nextCall_eq_some.mp
  cases c with
  | mmap r => exact ha.1
  | _ => exact ha

theorem MainRunning.succeeds {as : List MainAct} {s : MainState} (h : MainRunning as s)
    {c : MainCall} (ha : s.Enabled (.succeeds c)) :
    MainRunning (as ++ [.succeeds c]) (s.next (.succeeds c)) := by
  obtain ⟨todo, hstage⟩ := stage_of_succeeds ha
  have hafter : (s.next (.succeeds c)).stage = .calls todo := by
    rw [MainState.next, hstage, MainStage.afterCall]
  refine ⟨Or.inr ⟨todo, hafter⟩, ?_, ?_, ?_, h.removed⟩
  · intro rest hrest
    obtain rfl : todo = rest := MainStage.calls.inj (hafter.symm.trans hrest)
    rcases h.forks _ hstage with htodo | hstarted
    · rcases List.mem_cons.mp htodo with rfl | hrest
      · exact Or.inr (by simp)
      · exact Or.inl hrest
    · exact Or.inr (List.mem_append_left _ hstarted)
  · simp only [MainState.next, List.count_append, List.count_singleton]
    by_cases hfork : c = .fork <;> simp [hfork, h.children]
  · have hlisted := h.listed
    simp only [MainState.next]
    rcases Bool.eq_false_or_eq_true s.moved with hmoved | hmoved <;>
      by_cases hfork : c = .fork <;> simp_all

theorem MainRunning.fails {as : List MainAct} {s : MainState} (h : MainRunning as s)
    {c : MainCall} (ha : s.Enabled (.fails c)) :
    MainRunning (as ++ [.fails c]) (s.next (.fails c)) := by
  obtain ⟨todo, hstage⟩ := nextCall_eq_some.mp ha
  have hchildren : s.children = (as ++ [MainAct.fails c]).count (.succeeds .fork) := by
    simpa using h.children
  cases hchecked : c.checked with
  | true =>
    have hended : (s.next (.fails c)).stage = .ended := by simp [MainState.next, hchecked]
    exact ⟨Or.inl hended, fun rest hrest => (by cases hended.symm.trans hrest), hchildren,
      h.listed, h.removed⟩
  | false =>
    have hafter : (s.next (.fails c)).stage = .calls todo := by
      simp [MainState.next, hchecked, hstage, MainStage.afterCall]
    refine ⟨Or.inr ⟨todo, hafter⟩, fun rest hrest => ?_, hchildren, h.listed, h.removed⟩
    obtain rfl : todo = rest := MainStage.calls.inj (hafter.symm.trans hrest)
    have hfork : .fork ≠ c := by
      rintro rfl
      cases hchecked
    exact (h.forks _ hstage).imp (List.mem_of_ne_of_mem hfork) (List.mem_append_left _)

theorem MainRunning.step {as : List MainAct} {s : MainState} (h : MainRunning as s) {a : MainAct}
    (ha : s.Enabled a) (hleave : a ≠ .leave) : MainRunning (as ++ [a]) (s.next a) := by
  cases a with
  | succeeds c => exact h.succeeds ha
  | fails c => exact h.fails ha
  | tick =>
    exact ⟨h.stage, fun todo htodo => (h.forks todo htodo).imp_right (List.mem_append_left _),
      by simpa [MainState.next] using h.children, h.listed, h.removed⟩
  | tickFails =>
    exact ⟨Or.inl rfl, fun todo htodo => (by cases htodo),
      by simpa [MainState.next] using h.children, h.listed, h.removed⟩
  | request n moves =>
    have hstarted : .succeeds .fork ∈ as := (h.forks [] ha).resolve_left List.not_mem_nil
    refine ⟨Or.inr ⟨_, rfl⟩, fun _ _ => Or.inr (List.mem_append_left _ hstarted),
      by simpa [MainState.next] using h.children, ?_, h.removed⟩
    have hlisted := h.listed
    cases moves <;> simp_all [MainState.next]
  | leave => exact absurd rfl hleave
  -- the calls after the loop
  | terminate =>
    rcases h.stage with hended | ⟨todo, hcalls⟩
    · cases hended.symm.trans ha
    · cases hcalls.symm.trans ha
  | remove r =>
    obtain ⟨rest, hstage⟩ := nextRemoval_eq_some.mp ha
    rcases h.stage with hended | ⟨todo, hcalls⟩
    · cases hended.symm.trans hstage
    · cases hcalls.symm.trans hstage
  | «return» =>
    rcases h.stage with hended | ⟨todo, hcalls⟩
    · cases hended.symm.trans ha
    · cases hcalls.symm.trans ha

theorem MainLeaving.not_calls {s : MainState} (h : MainLeaving s) (todo : List MainCall) :
    s.stage ≠ .calls todo := by
  intro hstage
  rw [MainLeaving, hstage] at h
  exact h

theorem MainLeaving.step {s : MainState} (h : MainLeaving s) {a : MainAct} (ha : s.Enabled a) :
    MainLeaving (s.next a) := by
  cases a with
  | succeeds c =>
    obtain ⟨todo, hstage⟩ := stage_of_succeeds ha
    exact absurd hstage (h.not_calls _)
  | fails c =>
    obtain ⟨todo, hstage⟩ := nextCall_eq_some.mp ha
    exact absurd hstage (h.not_calls _)
  | terminate =>
    have hstage : s.stage = .terminating := ha
    rw [MainLeaving, hstage] at h
    obtain ⟨hpos, hlisted⟩ := h
    refine ⟨?_, fun r => Or.inr (mem_cleanUpOrder r)⟩
    cases hmoved : s.moved <;> simp_all [MainState.next]
    omega
  | remove r =>
    obtain ⟨rest, hstage⟩ := nextRemoval_eq_some.mp ha
    rw [MainLeaving, hstage] at h
    obtain ⟨hchildren, hremoved⟩ := h
    rw [MainLeaving]
    simp only [MainState.next, hstage, MainStage.afterRemoval]
    refine ⟨hchildren, fun q => ?_⟩
    by_cases hq : q = r
    · exact Or.inl (by rw [hq, Function.update_self])
    · rw [Function.update_of_ne hq]
      exact (hremoved q).imp_right fun hmem => List.mem_of_ne_of_mem hq hmem
  | «return» =>
    have hstage : s.stage = .cleanUp [] := ha
    rw [MainLeaving, hstage] at h
    exact ⟨h.1, fun r => (h.2 r).resolve_right List.not_mem_nil⟩
  | _ => exact absurd ha (h.not_calls _)

theorem MainTrace.moved_step {as : List MainAct} {s : MainState} (h : MainTrace as s)
    (a : MainAct) : (s.next a).moved = true ↔ TableMoves (as ++ [a]) := by
  have hold := h.moved
  simp only [TableMoves] at hold ⊢
  cases a with
  | request n moves => cases moves <;> simp [MainState.next, hold]
  | _ => simpa [MainState.next] using hold

theorem MainTrace.step {as : List MainAct} {s : MainState} (h : MainTrace as s) {a : MainAct}
    (ha : s.Enabled a) : MainTrace (as ++ [a]) (s.next a) where
  opened := h.opened_step a
  moved := h.moved_step a
  started hleave := by
    by_cases hleft : .leave ∈ as
    · exact List.mem_append_left _ (h.started hleft)
    · rw [List.mem_append, List.mem_singleton] at hleave
      obtain rfl := hleave.resolve_left hleft
      exact List.mem_append_left _
        (((h.running hleft).forks [] ha).resolve_left List.not_mem_nil)
  running hleave := by
    rw [List.mem_append, List.mem_singleton, not_or] at hleave
    exact (h.running hleave.1).step ha (Ne.symm hleave.2)
  leaving hleave := by
    by_cases hleft : .leave ∈ as
    · exact (h.leaving hleft).step ha
    · rw [List.mem_append, List.mem_singleton] at hleave
      obtain rfl := hleave.resolve_left hleft
      have hrunning := h.running hleft
      have hstarted := (hrunning.forks [] ha).resolve_left List.not_mem_nil
      refine ⟨?_, hrunning.listed⟩
      show 0 < s.children
      rw [hrunning.children]
      exact List.count_pos_iff.mpr hstarted

theorem mainTrace_init (numOperators numUsers : ℕ) :
    MainTrace [] (MainState.init numOperators numUsers) where
  opened r := by simp [MainState.init]
  moved := by simp [MainState.init, TableMoves]
  started hleave := by cases hleave
  running _ := by
    refine ⟨Or.inr ⟨_, rfl⟩, fun todo htodo => Or.inl ?_, rfl, rfl, fun _ => rfl⟩
    obtain rfl : startupCalls numOperators numUsers = todo := MainStage.calls.inj htodo
    simp [startupCalls]
  leaving hleave := by cases hleave

theorem mainTrace_run {numOperators numUsers : ℕ} {as : List MainAct}
    (h : directorMain.Runs (MainState.init numOperators numUsers) as) :
    MainTrace as (directorMain.after (MainState.init numOperators numUsers) as) :=
  directorMain.trace_invariant (mainTrace_init numOperators numUsers)
    (fun _ _ _ hs ha => hs.step ha) as h

/-- When `main` ends it leaves nothing behind exactly if it has left the loop with its table where
it was, or no `fork` has succeeded and everything it has opened was there before. -/
theorem director_leaves_nothing_iff (numOperators numUsers : ℕ) (before : Resource → Bool)
    (as : List MainAct) (h : directorMain.Runs (MainState.init numOperators numUsers) as)
    (hended : (directorMain.after (MainState.init numOperators numUsers) as).stage = .ended) :
    LeavesNothing before (directorMain.after (MainState.init numOperators numUsers) as) ↔
      .leave ∈ as ∧ ¬ TableMoves as ∨ .succeeds .fork ∉ as ∧
        ∀ c r, .succeeds c ∈ as → c.opens = some r → before r = true := by
  have htrace := mainTrace_run h
  generalize directorMain.after (MainState.init numOperators numUsers) as = s at hended htrace
  by_cases hleave : .leave ∈ as
  · have hleaving := htrace.leaving hleave
    rw [MainLeaving, hended] at hleaving
    obtain ⟨hchildren, hremoved⟩ := hleaving
    rw [← htrace.moved, Bool.not_eq_true]
    constructor
    · intro hnothing
      exact Or.inl ⟨hleave, hchildren.mp hnothing.children⟩
    · rintro (⟨-, hmoved⟩ | ⟨hfork, -⟩)
      · exact ⟨hchildren.mpr hmoved, fun r _ _ => hremoved r⟩
      · exact absurd (htrace.started hleave) hfork
  · obtain ⟨-, -, hchildren, -, hremoved⟩ := htrace.running hleave
    constructor
    · intro hnothing
      refine Or.inr ⟨?_, ?_⟩
      · rw [← List.count_eq_zero, ← hchildren]
        exact hnothing.children
      · intro c r hc hopens
        by_contra hbefore
        have hgone := hnothing.resources r ((htrace.opened r).mpr ⟨c, hc, hopens⟩)
          (by simpa using hbefore)
        rw [hremoved r] at hgone
        cases hgone
    · rintro (⟨hleft, -⟩ | ⟨hfork, hopened⟩)
      · exact absurd hleft hleave
      · refine ⟨hchildren.trans (List.count_eq_zero.mpr hfork), fun r hr hbefore => ?_⟩
        obtain ⟨c, hc, hopens⟩ := (htrace.opened r).mp hr
        rw [hopened c r hc hopens] at hbefore
        cases hbefore

/-- A simulation of one operator and one user that is over after a minute. -/
def shortMain : List MainAct :=
  (startupCalls 1 1).map .succeeds ++ [.tick, .leave, .terminate] ++ cleanUpOrder.map .remove ++
    [.return]

theorem director_leaves_nothing_iff_short :
    LeavesNothing (fun _ => false) (directorMain.after (MainState.init 1 1) shortMain) ↔
      .leave ∈ shortMain ∧ ¬ TableMoves shortMain ∨ .succeeds .fork ∉ shortMain ∧
        ∀ c r, .succeeds c ∈ shortMain → c.opens = some r → false = true :=
  director_leaves_nothing_iff 1 1 (fun _ => false) shortMain (by decide) (by decide)

/-- The configuration file does not open, and four resources stay. -/
theorem missing_config_leaves_resources : ¬ ∀ as : List MainAct,
    directorMain.Runs (MainState.init 1 1) as →
    (directorMain.after (MainState.init 1 1) as).stage = .ended →
    LeavesNothing (fun _ => false) (directorMain.after (MainState.init 1 1) as) := by
  intro hclean
  have hnothing := hclean (((startupCalls 1 1).take 8).map .succeeds ++ [.fails .openConfig])
    (by decide) (by decide)
  exact absurd (hnothing.resources .ticketQueue) (by decide)

/-- After the normal end no child is left exactly if the loops over the table, with the handles
that `realloc` has returned, kill all children and wait for them. -/
theorem no_child_left_iff {H : Type} [DecidableEq H] (r : ChildRun H) (as : List MainAct)
    (h : directorMain.Runs (MainState.init r.numOperators r.numUsers) as)
    (hended : (directorMain.after (MainState.init r.numOperators r.numUsers) as).stage = .ended)
    (hleave : .leave ∈ as) (hmoves : TableMoves as ↔ ∃ g ∈ r.requests, g.handle ≠ r.handle) :
    (directorMain.after (MainState.init r.numOperators r.numUsers) as).children = 0 ↔
      r.terminate = some (r.pids, r.pids) := by
  have htrace := mainTrace_run h
  generalize directorMain.after (MainState.init r.numOperators r.numUsers) as = s at hended htrace
  have hleaving := htrace.leaving hleave
  rw [MainLeaving, hended] at hleaving
  rw [hleaving.1, r.terminate_all_iff, ← Bool.not_eq_true, htrace.moved, hmoves]
  push Not
  rfl

variable {O U : Type} [Fintype O] [Fintype U] [DecidableEq O] [DecidableEq U]

/-- The call that a step of the director is. In the simulation the table never moves. -/
def mainAct : Act O U → Option MainAct
  | .director .tick => some .tick
  | .director .nanosleepFails => some .tickFails
  | .director .timeout => some .leave
  | .director .explode => some .leave
  | .director (.receiveNewUsers n) => some (.request n false)
  | .director (.startUser _ _) => some (.succeeds .fork)
  | _ => none

/-- Where `main` is in a phase of the loop. -/
def Direttore.Phase.mainStage : Direttore.Phase → MainStage
  | .starting left => .calls (List.replicate left .fork)
  | .over => .terminating
  | .exited => .ended
  | _ => .calls []

/-- In the simulation the director makes the calls of its loop. -/
theorem poste_refines_directorMain (site : Site O U) :
    (poste site).Refines directorMain (fun w s => s.stage = w.dir.phase.mainStage) mainAct := by
  intro w s a hstage ha
  cases a with
  | director b =>
    obtain ⟨-, hb, -⟩ := ha
    cases b <;> simp only [Direttore.Enabled] at hb <;>
      simp_all [mainAct, poste, directorMain, World.next, Direttore.next, MainState.Enabled,
        MainState.next, Direttore.Phase.mainStage, MainStage.nextCall, MainStage.afterCall,
        List.replicate_succ]
  | oper o b => exact hstage
  | user u b => exact hstage
  | ticket b => exact hstage
  | «section» => exact hstage

end PosteItaliane
