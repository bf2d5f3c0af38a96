import Mathlib.Data.List.TakeWhile

/-!
# Tokens between delimiters

The tokens of a text are the nonempty pieces between its delimiters. A reader that skips
delimiters, takes what comes before the next one and goes on behind it returns them one
after the other.
-/

namespace Framework

variable {α : Type*}

/-- The nonempty pieces of `s` between elements that satisfy `p`. -/
def tokens (p : α → Bool) (s : List α) : List (List α) :=
  (s.splitOnP p).filter fun t => !t.isEmpty

/-- The first token and the text behind the delimiter that ends it. -/
def nextToken (p : α → Bool) (s : List α) : Option (List α × List α) :=
  match s.dropWhile p with
  | [] => none
  | c :: s => some (c :: s.takeWhile fun c => !p c, (s.dropWhile fun c => !p c).drop 1)

@[simp] theorem tokens_nil (p : α → Bool) : tokens p [] = [] := by
  simp [tokens, List.splitOnP_nil]

theorem tokens_append_delimiter (p : α → Bool) (s t : List α) (d : α) (hd : p d = true) :
    tokens p (s ++ d :: t) = tokens p s ++ tokens p t := by
  rw [tokens, List.splitOnP_append_cons s t hd, List.filter_append]
  rfl

theorem tokens_dropWhile (p : α → Bool) (s : List α) : tokens p (s.dropWhile p) = tokens p s := by
  induction s with
  | nil => rfl
  | cons c s ih =>
    cases hc : p c with
    | true => rw [List.dropWhile_cons_of_pos hc, ih,
        ← List.nil_append (c :: s), tokens_append_delimiter p [] s c hc, tokens_nil,
        List.nil_append]
    | false => rw [List.dropWhile_cons_of_neg (by simp [hc])]

theorem tokens_of_word (p : α → Bool) (word : List α) (hne : word ≠ [])
    (hword : ∀ c ∈ word, p c = false) : tokens p word = [word] := by
  rw [tokens, List.splitOnP_eq_singleton hword]
  cases word with
  | nil => exact absurd rfl hne
  | cons c word => rfl

theorem tokens_cons_word (p : α → Bool) (c : α) (s : List α) (hc : p c = false) :
    tokens p (c :: s) =
      (c :: s.takeWhile fun c => !p c) :: tokens p ((s.dropWhile fun c => !p c).drop 1) := by
  let word := c :: s.takeWhile fun c => !p c
  have hword : ∀ d ∈ word, p d = false := by
    intro d hd
    rcases List.mem_cons.1 hd with hd | hd
    · rw [hd, hc]
    · simpa using List.mem_takeWhile_imp hd
  have hsplit : c :: s = word ++ s.dropWhile fun c => !p c := by
    simp [word, List.takeWhile_append_dropWhile]
  have htokens : tokens p word = [word] := tokens_of_word p word (by simp [word]) hword
  rw [hsplit]
  cases hrest : s.dropWhile fun c => !p c with
  | nil => simpa using htokens
  | cons d rest =>
    have hd : p d = true := by
      have hhead := List.head_dropWhile_not (fun c => !p c) (l := s) (by simp [hrest])
      simpa [hrest] using hhead
    rw [tokens_append_delimiter p word rest d hd, htokens]
    rfl

theorem tokens_eq_nextToken (p : α → Bool) (s : List α) :
    tokens p s =
      match nextToken p s with
      | none => []
      | some (token, rest) => token :: tokens p rest := by
  rw [← tokens_dropWhile p s]
  unfold nextToken
  cases hs : s.dropWhile p with
  | nil => simp
  | cons c rest =>
    have hc : p c = false := by
      have hhead := List.head_dropWhile_not p (l := s) (by simp [hs])
      simpa [hs] using hhead
    exact tokens_cons_word p c rest hc

/-- Only the delimiters that occur matter. -/
theorem tokens_congr (p q : α → Bool) (s : List α) (h : ∀ c ∈ s, p c = q c) :
    tokens p s = tokens q s := by
  have hsplit : s.splitOnP p = s.splitOnP q := by
    induction s with
    | nil => rfl
    | cons c s ih =>
      rw [List.splitOnP_cons_eq_if_modifyHead, List.splitOnP_cons_eq_if_modifyHead,
        h c (by simp), ih fun d hd => h d (by simp [hd])]
  rw [tokens, hsplit]
  rfl

end Framework
