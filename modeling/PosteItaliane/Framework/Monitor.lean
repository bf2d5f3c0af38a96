import PosteItaliane.Framework.GuardedSystem
import Mathlib.Algebra.BigOperators.Group.List.Basic

/-!
# Lock-guarded critical sections

A monitor is a value behind one lock. A process enters with the list of assignments its
critical section makes; they are executed one at a time while every other process keeps
running, and the lock is given back when none is left. The settled value, in which the
assignments still pending are already made, changes only when a section is entered, and
then by the whole section. A law kept by every whole section therefore holds of the value
itself whenever the lock is free.
-/

namespace Framework

/-- A value behind a lock. The holder comes with the assignments it has still to make. -/
structure Monitor (P V W : Type*) where
  value : V
  holder : Option (P × List W)

/-- The effect of one assignment. -/
class Assignment (V W : Type*) where
  assign : W → V → V

/-- The effect of a list of assignments, first to last. -/
def assignAll {V W : Type*} [Assignment V W] (ws : List W) (v : V) : V :=
  ws.foldl (fun v w => Assignment.assign w v) v

theorem assignAll_add {V W M : Type*} [Assignment V W] [AddMonoid M] {f : V → M} {d : W → M}
    (h : ∀ w v, f (Assignment.assign w v) = f v + d w) (ws : List W) (v : V) :
    f (assignAll ws v) = f v + (ws.map d).sum := by
  induction ws generalizing v with
  | nil => simp [assignAll]
  | cons w ws ih =>
    have hrest : f (assignAll (w :: ws) v) = f (assignAll ws (Assignment.assign w v)) := rfl
    rw [hrest, ih, h, List.map_cons, List.sum_cons, add_assoc]

/-- A quantity that a list of assignments changes at one place has its old or its new value
wherever the list is stopped. -/
theorem assignAll_prefix {V W M : Type*} [Assignment V W] [AddMonoid M] {f : V → M} {d : W → M}
    (h : ∀ w v, f (Assignment.assign w v) = f v + d w) {front back made : List W} {w : W}
    (hfront : ∀ e ∈ front, d e = 0) (hback : ∀ e ∈ back, d e = 0)
    (hmade : made <+: front ++ w :: back) (v : V) :
    f (assignAll made v) = f v ∨
      f (assignAll made v) = f (assignAll (front ++ w :: back) v) := by
  have hzero {ws : List W} (hws : ∀ e ∈ ws, d e = 0) : (ws.map d).sum = 0 := by
    apply List.sum_eq_zero
    intro x hx
    obtain ⟨e, he, rfl⟩ := List.mem_map.mp hx
    exact hws e he
  rw [assignAll_add h, assignAll_add h, List.map_append, List.map_cons, List.sum_append,
    List.sum_cons, hzero hfront, hzero hback, zero_add, add_zero]
  rcases List.prefix_or_prefix_of_prefix hmade (List.prefix_append front _) with
    hshort | ⟨rest, rfl⟩
  · left
    rw [hzero fun e he => hfront e (hshort.subset he), add_zero]
  · rw [List.prefix_append_right_inj, List.prefix_cons_iff] at hmade
    rcases hmade with rfl | ⟨rest, rfl, hrest⟩
    · left
      rw [List.append_nil, hzero hfront, add_zero]
    · right
      rw [List.map_append, List.map_cons, List.sum_append, List.sum_cons, hzero hfront,
        hzero fun e he => hback e (hrest.subset he), zero_add, add_zero]

theorem assignAll_view {V V' W : Type*} [Assignment V W] [Assignment V' W] {f : V → V'}
    (h : ∀ (w : W) v, f (Assignment.assign w v) = Assignment.assign w (f v)) (ws : List W) (v : V) :
    f (assignAll ws v) = assignAll ws (f v) := by
  induction ws generalizing v with
  | nil => rfl
  | cons w ws ih =>
    have hrest : f (assignAll (w :: ws) v) = f (assignAll ws (Assignment.assign w v)) := rfl
    rw [hrest, ih, h]
    rfl

namespace Monitor

variable {P V W : Type*}

/-- The lock is free. -/
def Free (m : Monitor P V W) : Prop := m.holder = none

instance (m : Monitor P V W) : Decidable m.Free :=
  match h : m.holder with
  | none => isTrue h
  | some _ => isFalse (by simp [Free, h])

/-- The process that is inside its critical section. -/
def inside (m : Monitor P V W) : Option P := m.holder.map Prod.fst

/-- The assignments that the section in progress has still to make. -/
def pending (m : Monitor P V W) : List W := (m.holder.map Prod.snd).getD []

/-- Take the lock for a section with the given assignments. -/
def enter (m : Monitor P V W) (p : P) (ws : List W) : Monitor P V W :=
  { m with holder := some (p, ws) }

variable [Assignment V W]

/-- The holder makes its next assignment, or gives the lock back when none is left. -/
def advance (m : Monitor P V W) : Monitor P V W :=
  match m.holder with
  | some (p, w :: ws) => ⟨Assignment.assign w m.value, some (p, ws)⟩
  | _ => { m with holder := none }

/-- The value once the section in progress is finished. -/
def settled (m : Monitor P V W) : V :=
  match m.holder with
  | some (_, ws) => assignAll ws m.value
  | none => m.value

theorem settled_eq (m : Monitor P V W) : m.settled = assignAll m.pending m.value := by
  obtain ⟨v, _ | ⟨p, ws⟩⟩ := m <;> rfl

theorem holder_of_advance {m : Monitor P V W} {p : P} {ws : List W}
    (h : m.advance.holder = some (p, ws)) : ∃ w, m.holder = some (p, w :: ws) := by
  obtain ⟨v, _ | ⟨q, _ | ⟨w, vs⟩⟩⟩ := m
  · cases h
  · cases h
  · cases h
    exact ⟨w, rfl⟩

theorem advance_cons {m : Monitor P V W} {p : P} {w : W} {ws : List W}
    (h : m.holder = some (p, w :: ws)) :
    m.advance = ⟨Assignment.assign w m.value, some (p, ws)⟩ := by
  simp [advance, h]

theorem advance_nil {m : Monitor P V W} {p : P} (h : m.holder = some (p, [])) :
    m.advance = ⟨m.value, none⟩ := by
  simp [advance, h]

theorem settled_of_free {m : Monitor P V W} (h : m.Free) : m.settled = m.value := by
  have h : m.holder = none := h
  simp [settled, h]

theorem settled_enter {m : Monitor P V W} (h : m.Free) (p : P) (ws : List W) :
    (m.enter p ws).settled = assignAll ws m.settled := by
  rw [settled_of_free h]
  rfl

@[simp] theorem settled_advance (m : Monitor P V W) : m.advance.settled = m.settled := by
  obtain ⟨v, _ | ⟨p, _ | ⟨w, ws⟩⟩⟩ := m <;> rfl

/-- What the clients of a monitor can do: begin a section, or execute its next assignment. -/
inductive Event (P O : Type*) where
  | begin (p : P) (op : O)
  | advance

/-- Any number of processes calling operations with the sections `body` gives, in
any order and with any interleaving of the single assignments. -/
def clients (body : O → List W) : GuardedSystem (Monitor P V W) (Event P O) where
  Enabled m
    | .begin _ _ => m.Free
    | .advance => ¬ m.Free
  next m
    | .begin p op => m.enter p (body op)
    | .advance => m.advance

instance {O : Type*} (body : O → List W) (m : Monitor P V W) :
    ∀ e : Event P O, Decidable ((clients body).Enabled m e)
  | .begin _ _ => inferInstanceAs (Decidable m.Free)
  | .advance => inferInstanceAs (Decidable (¬ m.Free))

theorem clients_settled {O : Type*} {body : O → List W} {Law : V → Prop}
    (hop : ∀ op v, Law v → Law (assignAll (body op) v))
    {m : Monitor P V W} (h0 : Law m.settled) (es : List (Event P O))
    (h : (clients body).Runs m es) : Law ((clients body).after m es).settled := by
  refine (clients body).invariant (P := fun m => Law m.settled) h0 ?_ es h
  intro m e hlaw he
  cases e with
  | begin p op =>
    have hfree : m.Free := he
    have hsettled := settled_enter hfree p (body op)
    exact hsettled ▸ hop op _ hlaw
  | advance => exact (settled_advance m).symm ▸ hlaw

/-- The operation that an event begins. -/
def Event.call {O : Type*} : Event P O → Option O
  | .begin _ op => some op
  | .advance => none

/-- The operations of a run, in the order in which they took the lock. -/
def calls {O : Type*} (es : List (Event P O)) : List O := es.filterMap Event.call

theorem calls_snoc {O : Type*} (es : List (Event P O)) (e : Event P O) :
    calls (es ++ [e]) = calls es ++ e.call.toList := by
  cases e <;> simp [calls, Event.call]

/-- Any interleaving settles to what its operations do one after the other, each as a whole. A
value that is known for every sequence of operations is therefore known for every run. -/
theorem clients_serial {O : Type*} {body : O → List W} {F : List O → V}
    (hop : ∀ ops op, F (ops ++ [op]) = assignAll (body op) (F ops))
    {m : Monitor P V W} (h0 : m.settled = F []) (es : List (Event P O))
    (h : (clients body).Runs m es) : ((clients body).after m es).settled = F (calls es) := by
  refine (clients body).trace_invariant (P := fun es m => m.settled = F (calls es)) h0 ?_ es h
  intro es m e hserial he
  rw [calls_snoc]
  cases e with
  | begin p op =>
    have hfree : m.Free := he
    have hsettled := settled_enter hfree p (body op)
    rw [hserial, ← hop] at hsettled
    exact hsettled
  | advance =>
    have hsettled := settled_advance m
    rw [hserial] at hsettled
    rw [Event.call, Option.toList_none, List.append_nil]
    exact hsettled

/-- The operations of the list are made one after the other, except that the last one is made
only up to the assignments that its holder has still to make. -/
def MadeUpTo {O : Type*} (body : O → List W) (F : List O → V) (m : Monitor P V W) (ops : List O) :
    Prop :=
  match m.holder with
  | none => m.value = F ops
  | some (_, ws) => ∃ before op made, ops = before ++ [op] ∧ body op = made ++ ws ∧
      m.value = assignAll made (F before)

/-- At every point of a run the value is the one of the whole sections before the last, changed
by the assignments that the last one has made. -/
theorem clients_madeUpTo {O : Type*} {body : O → List W} {F : List O → V}
    (hop : ∀ ops op, F (ops ++ [op]) = assignAll (body op) (F ops))
    {v : V} (h0 : v = F []) (es : List (Event P O))
    (h : (clients body).Runs (⟨v, none⟩ : Monitor P V W) es) :
    ((clients body).after ⟨v, none⟩ es).MadeUpTo body F (calls es) := by
  have hstart : (⟨v, none⟩ : Monitor P V W).MadeUpTo body F [] := h0
  refine (clients body).trace_invariant (P := fun es m => m.MadeUpTo body F (calls es)) hstart ?_
    es h
  intro es m e hmade he
  obtain ⟨value, holder⟩ := m
  rw [calls_snoc]
  cases e with
  | begin p op =>
    have hfree : holder = none := he
    subst holder
    exact ⟨calls es, op, [], rfl, rfl, hmade⟩
  | advance =>
    rw [Event.call, Option.toList_none, List.append_nil]
    match holder, hmade, he with
    | none, _, he => exact absurd rfl he
    | some (p, []), ⟨before, op, made, hcalls, hbody, hvalue⟩, _ =>
      -- the last assignment was the one before, the lock is given back
      rw [List.append_nil] at hbody
      subst made
      show value = F (calls es)
      rw [hcalls, hop]
      exact hvalue
    | some (p, w :: ws), ⟨before, op, made, hcalls, hbody, hvalue⟩, _ =>
      refine ⟨before, op, made ++ [w], hcalls, by simpa using hbody, ?_⟩
      show Assignment.assign w value = _
      have hvalue : value = assignAll made (F before) := hvalue
      rw [hvalue]
      simp [assignAll, List.foldl_append]

end Monitor

end Framework
