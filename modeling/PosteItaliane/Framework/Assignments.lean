import Mathlib.Data.List.Basic
import Mathlib.Logic.Nontrivial.Basic

/-!
# Records written by a list of assignments

A record has named fields; a list of assignments is applied from left to right. What a
field holds at the end is the last value assigned to it, so applying a list twice is
applying it once, assignments to different fields can be swapped, and two lists do the
same to every record exactly when they end with the same value for each field.
-/

namespace Framework

/-- A record type with a field for each key. -/
structure Fields (S K V : Type*) where
  get : S → K → V
  set : S → K → V → S
  get_set_same : ∀ s k v, get (set s k v) k = v
  get_set_other : ∀ s k v k', k' ≠ k → get (set s k v) k' = get s k'
  ext : ∀ s t, (∀ k, get s k = get t k) → s = t

namespace Fields

variable {S K V : Type*} (F : Fields S K V)

/-- The assignments of the list, the first one first. -/
def assign (s : S) (l : List (K × V)) : S := l.foldl (fun s kv => F.set s kv.1 kv.2) s

@[simp] theorem assign_nil (s : S) : F.assign s [] = s := rfl

@[simp] theorem assign_cons (s : S) (kv : K × V) (l : List (K × V)) :
    F.assign s (kv :: l) = F.assign (F.set s kv.1 kv.2) l := rfl

theorem assign_append (s : S) (l m : List (K × V)) :
    F.assign s (l ++ m) = F.assign (F.assign s l) m :=
  List.foldl_append

variable [DecidableEq K]

/-- The last value that the list assigns to `k`. -/
def lastFor (k : K) (l : List (K × V)) : Option V :=
  ((l.filter fun kv => kv.1 = k).getLast?).map (·.2)

@[simp] theorem lastFor_nil (k : K) : lastFor k ([] : List (K × V)) = none := rfl

theorem lastFor_append (k : K) (l m : List (K × V)) :
    lastFor k (l ++ m) = (lastFor k m).or (lastFor k l) := by
  unfold lastFor
  rw [List.filter_append, List.getLast?_append]
  cases (m.filter fun kv => kv.1 = k).getLast? <;> rfl

theorem lastFor_cons (k : K) (kv : K × V) (l : List (K × V)) :
    lastFor k (kv :: l) = (lastFor k l).or (if kv.1 = k then some kv.2 else none) := by
  rw [← List.singleton_append, lastFor_append]
  by_cases hk : kv.1 = k <;> simp [lastFor, hk]

theorem get_assign (s : S) (l : List (K × V)) (k : K) :
    F.get (F.assign s l) k = (lastFor k l).getD (F.get s k) := by
  induction l generalizing s with
  | nil => rfl
  | cons kv l ih =>
    rw [assign_cons, ih, lastFor_cons]
    by_cases hk : kv.1 = k
    · subst hk
      cases lastFor kv.1 l <;> simp [F.get_set_same]
    · cases lastFor k l <;> simp [hk, F.get_set_other s kv.1 kv.2 k (Ne.symm hk)]

theorem assign_assign (s : S) (l : List (K × V)) :
    F.assign (F.assign s l) l = F.assign s l := by
  apply F.ext
  intro k
  rw [get_assign, get_assign]
  cases lastFor k l <;> rfl

theorem assign_swap (s : S) (l m : List (K × V)) (a b : K × V) (hne : a.1 ≠ b.1) :
    F.assign s (l ++ a :: b :: m) = F.assign s (l ++ b :: a :: m) := by
  apply F.ext
  intro k
  rw [get_assign, get_assign]
  congr 1
  simp only [lastFor_append, lastFor_cons]
  by_cases ha : a.1 = k
  · have hb : b.1 ≠ k := fun hb => hne (ha.trans hb.symm)
    simp [ha, hb]
  · simp [ha]

theorem assign_forall (P : K → V → Prop) (s : S) (l : List (K × V))
    (hs : ∀ k, P k (F.get s k)) (hl : ∀ kv ∈ l, P kv.1 kv.2) (k : K) :
    P k (F.get (F.assign s l) k) := by
  induction l generalizing s with
  | nil => exact hs k
  | cons kv l ih =>
    apply ih (F.set s kv.1 kv.2)
    · intro k'
      by_cases hk : k' = kv.1
      · subst hk
        rw [F.get_set_same]
        exact hl kv (by simp)
      · rw [F.get_set_other s kv.1 kv.2 k' hk]
        exact hs k'
    · intro kv' hkv'
      exact hl kv' (by simp [hkv'])

/-- Two lists do the same to every record exactly when they end with the same value for
each field. -/
theorem assign_eq_iff [Nontrivial V] [Nonempty S] (l m : List (K × V)) :
    (∀ s, F.assign s l = F.assign s m) ↔ ∀ k, lastFor k l = lastFor k m := by
  constructor
  · intro h k
    have hall : ∀ v, (lastFor k l).getD v = (lastFor k m).getD v := by
      intro v
      obtain ⟨s⟩ := ‹Nonempty S›
      have hv := congrArg (fun t => F.get t k) (h (F.set s k v))
      simpa only [get_assign, F.get_set_same] using hv
    cases hl : lastFor k l with
    | none =>
      cases hm : lastFor k m with
      | none => rfl
      | some w =>
        obtain ⟨v, hv⟩ := exists_ne w
        exact absurd (by simpa [hl, hm] using hall v) hv
    | some w =>
      cases hm : lastFor k m with
      | none =>
        obtain ⟨v, hv⟩ := exists_ne w
        exact absurd (by simpa [hl, hm] using (hall v).symm) hv
      | some w' => simpa [hl, hm] using hall w
  · intro h s
    apply F.ext
    intro k
    rw [get_assign, get_assign, h k]

theorem lastFor_of_keys (k : K) (l : List (K × V)) (hl : ∀ kv ∈ l, kv.1 = k) :
    lastFor k l = l.getLast?.map (·.2) := by
  unfold lastFor
  rw [List.filter_eq_self.2 (by simpa using hl)]

theorem lastFor_eq_none (k : K) (l : List (K × V)) :
    lastFor k l = none ↔ ∀ kv ∈ l, kv.1 ≠ k := by
  simp [lastFor]

theorem lastFor_eq_nil_iff (l : List (K × V)) :
    (∀ k, lastFor k l = lastFor k []) ↔ l = [] := by
  constructor
  · intro h
    apply List.eq_nil_iff_forall_not_mem.2
    intro kv hkv
    exact (lastFor_eq_none kv.1 l).1 (h kv.1) kv hkv rfl
  · intro h k
    rw [h]

theorem lastFor_eq_single_iff (l : List (K × V)) (kv₀ : K × V) :
    (∀ k, lastFor k l = lastFor k [kv₀]) ↔
      (∀ kv ∈ l, kv.1 = kv₀.1) ∧ l.getLast? = some kv₀ := by
  have hsingle (k : K) : lastFor k [kv₀] = if kv₀.1 = k then some kv₀.2 else none := by
    simp [lastFor_cons]
  constructor
  · intro h
    have hkeys : ∀ kv ∈ l, kv.1 = kv₀.1 := by
      intro kv hkv
      by_contra hne
      have hnone := h kv.1
      rw [hsingle, if_neg (Ne.symm hne)] at hnone
      exact (lastFor_eq_none kv.1 l).1 hnone kv hkv rfl
    refine ⟨hkeys, ?_⟩
    have hlast := h kv₀.1
    rw [hsingle, if_pos rfl, lastFor_of_keys kv₀.1 l hkeys] at hlast
    obtain ⟨kv, hkv, hv⟩ := Option.map_eq_some_iff.1 hlast
    rw [hkv, Option.some.injEq]
    exact Prod.ext (hkeys kv (List.mem_of_getLast? hkv)) hv
  · rintro ⟨hkeys, hlast⟩ k
    rw [hsingle]
    by_cases hk : kv₀.1 = k
    · subst hk
      rw [lastFor_of_keys kv₀.1 l hkeys, hlast, if_pos rfl]
      rfl
    · rw [if_neg hk, lastFor_eq_none]
      intro kv hkv
      rw [hkeys kv hkv]
      exact hk

theorem mem_of_lastFor {k : K} {v : V} {l : List (K × V)} (h : lastFor k l = some v) :
    (k, v) ∈ l := by
  obtain ⟨kv, hkv, rfl⟩ := Option.map_eq_some_iff.1 h
  obtain ⟨hmem, hk⟩ := List.mem_filter.1 (List.mem_of_getLast? hkv)
  rw [decide_eq_true_eq] at hk
  rw [← hk]
  exact hmem

/-- For each of the keys that the list assigns to, the last value. -/
def lasts (keys : List K) (l : List (K × V)) : List (K × V) :=
  keys.filterMap fun k => (lastFor k l).map fun v => (k, v)

theorem mem_lasts {keys : List K} {l : List (K × V)} {kv : K × V} (h : kv ∈ lasts keys l) :
    lastFor kv.1 l = some kv.2 := by
  obtain ⟨k, -, hk⟩ := List.mem_filterMap.1 h
  obtain ⟨v, hv, rfl⟩ := Option.map_eq_some_iff.1 hk
  exact hv

theorem lastFor_lasts (keys : List K) (l : List (K × V)) (k : K) (hk : k ∈ keys) :
    lastFor k (lasts keys l) = lastFor k l := by
  cases hlast : lastFor k l with
  | none =>
    rw [lastFor_eq_none]
    rintro kv hkv rfl
    cases hlast.symm.trans (mem_lasts hkv)
  | some v =>
    have hmem : (k, v) ∈ lasts keys l := List.mem_filterMap.2 ⟨k, hk, by rw [hlast]; rfl⟩
    cases hv : lastFor k (lasts keys l) with
    | none => exact absurd rfl ((lastFor_eq_none k _).1 hv (k, v) hmem)
    | some w =>
      -- whatever stands last for the key is the last value of the list
      have hw := mem_lasts (mem_of_lastFor hv)
      exact hw.symm.trans hlast

end Fields

end Framework
