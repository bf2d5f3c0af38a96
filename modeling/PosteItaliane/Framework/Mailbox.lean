import Mathlib.Data.List.Basic
import Mathlib.Algebra.BigOperators.Group.Multiset.Basic
import Mathlib.Algebra.BigOperators.Group.Finset.Piecewise

/-!
# Mailboxes and what is in them

One queue shared by several receivers: a receive takes the first message the receiver
accepts and leaves the others in order. Conservation laws count the same things in the
queue (`tally`) and in the hands of the processes (`total`); the lemmas say how the counts
show when a message is sent or received and when one process changes its state.
-/

namespace Framework.Mailbox

variable {α β ι : Type*}

/-- The messages that stay after the first accepted one is taken. -/
def rest (p : α → Bool) (l : List α) : List α := l.eraseP p

theorem perm_of_find? {p : α → Bool} {l : List α} {a : α} (h : l.find? p = some a) :
    l.Perm (a :: rest p l) := by
  induction l with
  | nil => simp at h
  | cons b l ih =>
    by_cases hb : p b = true
    · have hba : b = a := by simpa [List.find?_cons, hb] using h
      subst b
      simp [rest, hb]
    · have hl : l.find? p = some a := by simpa [List.find?_cons, hb] using h
      have hrest : rest p (b :: l) = b :: rest p l := by simp [rest, hb]
      rw [hrest]
      exact ((ih hl).cons b).trans (List.Perm.swap a b _)

theorem mem_of_mem_rest {p : α → Bool} {l : List α} {a : α} (h : a ∈ rest p l) : a ∈ l :=
  List.mem_of_mem_eraseP h

theorem countP_or {p q : α → Bool} (hpq : ∀ a, p a = true → q a = false) (l : List α) :
    l.countP (fun a => p a || q a) = l.countP p + l.countP q := by
  induction l with
  | nil => rfl
  | cons a l ih =>
    rw [List.countP_cons, List.countP_cons, List.countP_cons, ih]
    cases hp : p a with
    | true =>
      simp [hpq a hp]
      omega
    | false =>
      simp
      omega

theorem sum_update {M : Type*} [Fintype ι] [DecidableEq ι] [AddCommMonoid M]
    (f : α → M) (g : ι → α) (i : ι) (a : α) :
    (∑ j, f (Function.update g i a j)) + f (g i) = (∑ j, f (g j)) + f a := by
  have hsplit (h : ι → α) : ∑ j, f (h j) = f (h i) + ∑ j ∈ Finset.univ.erase i, f (h j) :=
    (Finset.add_sum_erase _ _ (Finset.mem_univ i)).symm
  have hsame : ∑ j ∈ Finset.univ.erase i, f (Function.update g i a j) =
      ∑ j ∈ Finset.univ.erase i, f (g j) := by
    apply Finset.sum_congr rfl
    intro j hj
    rw [Function.update_of_ne (Finset.ne_of_mem_erase hj)]
  rw [hsplit (Function.update g i a), hsplit g, hsame, Function.update_self]
  ac_rfl

/-- A receive finds related messages in related queues and leaves related queues. -/
theorem receive_related {R : α → β → Prop} {p : α → Bool} {q : β → Bool}
    (hpq : ∀ a b, R a b → p a = q b) {l : List α} {k : List β} (h : List.Forall₂ R l k) :
    (l.find? p = none ∧ k.find? q = none) ∨
      ∃ a b, l.find? p = some a ∧ k.find? q = some b ∧ R a b ∧
        List.Forall₂ R (rest p l) (rest q k) := by
  induction h with
  | nil => exact Or.inl ⟨rfl, rfl⟩
  | @cons a b l k hab hlk ih =>
    cases ha : p a with
    | true =>
      have hb : q b = true := (hpq a b hab).symm.trans ha
      refine Or.inr ⟨a, b, by simp [ha], by simp [hb], hab, ?_⟩
      simpa [rest, ha, hb] using hlk
    | false =>
      have hb : q b = false := (hpq a b hab).symm.trans ha
      have hl : rest p (a :: l) = a :: rest p l := by simp [rest, ha]
      have hk : rest q (b :: k) = b :: rest q k := by simp [rest, hb]
      rw [List.find?_cons_of_neg (by simp [ha]), List.find?_cons_of_neg (by simp [hb]), hl, hk]
      refine ih.imp_right ?_
      rintro ⟨a', b', hfirst, hsecond, hrel, hrest⟩
      exact ⟨a', b', hfirst, hsecond, hrel, List.Forall₂.cons hab hrest⟩

variable [DecidableEq β]

/-- 1 if the option is `b`. -/
def hit (x : Option β) (b : β) : ℕ := if x = some b then 1 else 0

@[simp] theorem hit_some_self (b : β) : hit (some b) b = 1 := by
  simp [hit]

@[simp] theorem hit_none (b : β) : hit none b = 0 := by
  simp [hit]

theorem hit_pos {x : Option β} {b : β} (h : 0 < hit x b) : x = some b := by
  by_contra hx
  simp [hit, hx] at h

/-- The messages that `f` maps to `b`. -/
def tally (f : α → Option β) (l : List α) (b : β) : ℕ := l.countP fun a => f a = some b

theorem tally_send (f : α → Option β) (l : List α) (a : α) (b : β) :
    tally f (l ++ [a]) b = tally f l b + hit (f a) b := by
  simp [tally, hit, List.countP_append, List.countP_cons]

theorem tally_receive {p : α → Bool} {l : List α} {a : α} (h : l.find? p = some a)
    (f : α → Option β) (b : β) : tally f l b = tally f (rest p l) b + hit (f a) b := by
  rw [tally, (perm_of_find? h).countP_eq, List.countP_cons]
  simp [tally, hit]

theorem tally_pos {f : α → Option β} {l : List α} {a : α} {b : β} (ha : a ∈ l)
    (hab : f a = some b) : 0 < tally f l b :=
  List.countP_pos_iff.mpr ⟨a, ha, by simp [hab]⟩

variable [Fintype ι]

/-- The members of the family that hold `b`. -/
def total (g : ι → Option β) (b : β) : ℕ := ∑ i, hit (g i) b

theorem total_update [DecidableEq ι] (g : ι → Option β) (i : ι) (x : Option β) (b : β) :
    total (Function.update g i x) b + hit (g i) b = total g b + hit x b :=
  sum_update (fun y => hit y b) g i x

theorem exists_of_total_pos {g : ι → Option β} {b : β} (h : 0 < total g b) :
    ∃ i, g i = some b := by
  obtain ⟨i, -, hi⟩ := Finset.exists_ne_zero_of_sum_ne_zero h.ne'
  exact ⟨i, hit_pos (Nat.pos_of_ne_zero hi)⟩

theorem total_pos {g : ι → Option β} {i : ι} {b : β} (h : g i = some b) : 0 < total g b := by
  apply Nat.pos_of_ne_zero
  intro hzero
  have hi := Finset.sum_eq_zero_iff.mp hzero i (Finset.mem_univ i)
  rw [h, hit_some_self] at hi
  cases hi

theorem total_eq_zero {g : ι → Option β} {b : β} (h : ∀ i, g i ≠ some b) : total g b = 0 := by
  apply Finset.sum_eq_zero
  intro i _
  rw [hit, if_neg (h i)]

theorem total_eq_one {g : ι → Option β} {i : ι} {b : β} (hi : g i = some b)
    (hone : ∀ j, g j = some b → j = i) : total g b = 1 := by
  classical
  rw [total, Finset.sum_eq_single i]
  · rw [hi, hit_some_self]
  · intro j _ hji
    rw [hit, if_neg fun hj => hji (hone j hj)]
  · intro h
    exact absurd (Finset.mem_univ i) h

theorem total_eq_card (g : ι → Option β) (b : β) :
    total g b = (Finset.univ.filter fun i => g i = some b).card := by
  rw [Finset.card_filter]
  rfl

end Framework.Mailbox
