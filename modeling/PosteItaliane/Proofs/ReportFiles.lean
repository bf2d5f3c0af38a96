import PosteItaliane.Framework.Probing
import PosteItaliane.Model.ReportFiles
import Mathlib.Algebra.Group.Int.Defs
import Mathlib.Data.Set.Card
import Mathlib.Data.Set.Finite.Basic

/-!
# Exports keep earlier reports

The names of the reports are different for different numbers, and `write_stats` takes the
first one that is not in use. It finds one as long as its `int` has a number left, and then
it adds one file and touches no other. Past the last number the counter wraps around.
-/

namespace PosteItaliane

open Framework MachineInts

/-- The numbers an `int` counts to whose names are not in use. -/
def unusedReports {C : Type} (d : Directory C) : Finset ℕ :=
  (Finset.range (2 ^ 31)).filter fun i => (d (reportName i)).isNone

/-- The search of an export ends with the first unused name of the sequence, and whichever way
the export ends every file of the directory is as before. -/
def ExportsSafely {C : Type} (d : Directory C) : Prop :=
  ∃ n fuel : ℕ, d (reportName n) = none ∧ (∀ i < n, (d (reportName i)).isSome) ∧
    ∀ fuel' ≥ fuel, searchName d fuel' 0 = some (reportName n) ∧
      ∀ exit content, ∃ d', exportStats fuel' d exit content = some d' ∧
        ∀ f, (d f).isSome → d' f = d f

/-- The exports end, leave the files of the directory as they are and add one file each. -/
def AddsReports {C : Type} (d : Directory C) (contents : List C) : Prop :=
  ∃ fuel d', exportAll fuel d contents = some d' ∧ (∀ f, (d f).isSome → d' f = d f) ∧
    Set.encard {f | (d f).isNone ∧ (d' f).isSome} = contents.length

theorem decimalText_injective {m n : ℤ} (h : decimalText m = decimalText n) : m = n := by
  have hdigits {a b : ℕ} (hab : Nat.toDigits 10 a = Nat.toDigits 10 b) : a = b := by
    rw [← @Nat.ofDigitChars_ten_toDigits a, hab, Nat.ofDigitChars_ten_toDigits]
  have hsign {a b : ℕ} (hab : '-' :: Nat.toDigits 10 a = Nat.toDigits 10 b) : False := by
    have hminus : '-' ∈ Nat.toDigits 10 b := hab ▸ List.mem_cons_self
    exact absurd (Nat.isDigit_of_mem_toDigits (by decide) (by decide) hminus) (by decide)
  unfold decimalText at h
  split at h <;> split at h
  · have := hdigits (List.cons.inj h).2
    omega
  · exact (hsign h).elim
  · exact (hsign h.symm).elim
  · have := hdigits h
    omega

theorem reportName_injective {m n : ℤ} (h : reportName m = reportName n) : m = n := by
  have hstem {k : ℤ} : "./tmp/final_stats.csv".toList ≠
      "./tmp/final_stats_".toList ++ (decimalText k ++ ".csv".toList) := by
    intro hname
    have hchar := congrArg (fun name : List Char => name[17]?) hname
    rw [List.getElem?_append_left (by decide)] at hchar
    exact absurd hchar (by decide)
  unfold reportName at h
  split at h <;> split at h
  · omega
  · exact (hstem h).elim
  · exact (hstem h.symm).elim
  · exact decimalText_injective (List.append_cancel_right (List.append_cancel_left h))

/-- `counter++`. -/
def nextCounter (counter : ℤ) : ℤ := wrap 32 (counter + 1)

theorem nextCounter_iterate {n : ℕ} (h : n < 2 ^ 31) : nextCounter^[n] 0 = n := by
  induction n with
  | zero => rfl
  | succ n ih =>
    rw [Function.iterate_succ_apply', ih (by omega), nextCounter, wrap, Int.bmod_def]
    omega

theorem nextCounter_iterate_fits (n : ℕ) : Fits 32 (nextCounter^[n] 0) := by
  cases n with
  | zero => decide
  | succ n =>
    rw [Function.iterate_succ_apply', nextCounter, wrap, Fits, Int.bmod_def]
    omega

variable {C : Type}

/-- The loop probes the names of its counter. -/
theorem searchName_eq (d : Directory C) (fuel : ℕ) (counter : ℤ) :
    searchName d fuel counter =
      (probe (fun k => (d (reportName k)).isSome = true) nextCounter fuel counter).map
        reportName := by
  induction fuel generalizing counter with
  | zero => rfl
  | succ fuel ih =>
    rw [searchName, probe]
    cases hused : (d (reportName counter)).isSome with
    | true => simpa [hused, nextCounter] using ih (wrap 32 (counter + 1))
    | false => simp

theorem searchName_of_unused {d : Directory C} (h : (unusedReports d).Nonempty) :
    ∃ n : ℕ, n < 2 ^ 31 ∧ d (reportName n) = none ∧ (∀ i < n, (d (reportName i)).isSome) ∧
      ∀ fuel > n, searchName d fuel 0 = some (reportName n) := by
  classical
  have hexists : ∃ n : ℕ, n < 2 ^ 31 ∧ d (reportName n) = none := by
    obtain ⟨n, hn⟩ := h
    obtain ⟨hlt, hfree⟩ := Finset.mem_filter.mp hn
    exact ⟨n, Finset.mem_range.mp hlt, Option.isNone_iff_eq_none.mp hfree⟩
  obtain ⟨hlt, hfree⟩ := Nat.find_spec hexists
  have hbefore (i : ℕ) (hi : i < Nat.find hexists) : (d (reportName i)).isSome := by
    have hused := Nat.find_min hexists hi
    rw [not_and] at hused
    exact Option.isSome_iff_ne_none.mpr (hused (by omega))
  refine ⟨Nat.find hexists, hlt, hfree, hbefore, ?_⟩
  intro fuel hfuel
  have hprobe : probe (fun k => (d (reportName k)).isSome = true) nextCounter fuel 0 =
      some (nextCounter^[Nat.find hexists] 0) := by
    apply probe_of_first
    · rw [nextCounter_iterate hlt, hfree]
      simp
    · intro m hm
      rw [nextCounter_iterate (by omega)]
      exact hbefore m hm
    · exact hfuel
  rw [searchName_eq, hprobe, nextCounter_iterate hlt]
  rfl

theorem exportsSafely_of_unused {d : Directory C} (h : (unusedReports d).Nonempty) :
    ExportsSafely d := by
  obtain ⟨n, -, hfree, hbefore, hsearch⟩ := searchName_of_unused h
  refine ⟨n, n + 1, hfree, hbefore, fun fuel hfuel => ⟨hsearch fuel hfuel, ?_⟩⟩
  intro exit content
  cases exit with
  | noFolder => exact ⟨d, rfl, fun f _ => rfl⟩
  | notOpened => exact ⟨d, by simp [exportStats, hsearch fuel hfuel], fun f _ => rfl⟩
  | written =>
    refine ⟨Function.update d (reportName n) (some content), ?_, ?_⟩
    · simp [exportStats, hsearch fuel hfuel]
    · intro f hf
      apply Function.update_of_ne
      rintro rfl
      rw [hfree] at hf
      cases hf

theorem card_unusedReports_update (d : Directory C) (n : ℕ) (content : C) :
    (unusedReports d).card ≤
      (unusedReports (Function.update d (reportName n) (some content))).card + 1 := by
  have hsubset : unusedReports d ⊆
      insert n (unusedReports (Function.update d (reportName n) (some content))) := by
    intro i hi
    obtain ⟨hlt, hfree⟩ := Finset.mem_filter.mp hi
    by_cases hin : i = n
    · exact Finset.mem_insert.mpr (Or.inl hin)
    · apply Finset.mem_insert_of_mem
      apply Finset.mem_filter.mpr
      have hname : reportName i ≠ reportName n :=
        fun hname => hin (Int.natCast_inj.mp (reportName_injective hname))
      exact ⟨hlt, by rw [Function.update_of_ne hname]; exact hfree⟩
  exact (Finset.card_le_card hsubset).trans (Finset.card_insert_le _ _)

theorem newFiles_update {d d' : Directory C} {n : ℕ} {content : C}
    (hfree : d (reportName n) = none)
    (hkeep : ∀ f, (Function.update d (reportName n) (some content) f).isSome →
      d' f = Function.update d (reportName n) (some content) f) :
    {f | (d f).isNone ∧ (d' f).isSome} = insert (reportName n)
      {f | (Function.update d (reportName n) (some content) f).isNone ∧ (d' f).isSome} := by
  ext f
  by_cases hf : f = reportName n
  · subst hf
    have hnew := hkeep (reportName n) (by simp)
    simp [hfree, hnew]
  · simp [hf]

theorem exportAll_of_unused {d : Directory C} {contents : List C}
    (h : contents.length ≤ (unusedReports d).card) :
    ∃ d', exportAll (2 ^ 31) d contents = some d' ∧ (∀ f, (d f).isSome → d' f = d f) ∧
      Set.encard {f | (d f).isNone ∧ (d' f).isSome} = contents.length := by
  induction contents generalizing d with
  | nil =>
    refine ⟨d, rfl, fun f _ => rfl, ?_⟩
    have hempty : {f | (d f).isNone ∧ (d f).isSome} = ∅ := by
      ext f
      cases hf : d f <;> simp [hf]
    rw [hempty, Set.encard_empty]
    rfl
  | cons content rest ih =>
    rw [List.length_cons] at h
    have hunused : (unusedReports d).Nonempty := Finset.card_pos.mp (by omega)
    obtain ⟨n, hlt, hfree, -, hsearch⟩ := searchName_of_unused hunused
    have hcard := card_unusedReports_update d n content
    obtain ⟨d', hall, hkeep, hnew⟩ :=
      ih (d := Function.update d (reportName n) (some content)) (by omega)
    refine ⟨d', ?_, ?_, ?_⟩
    · simp only [exportAll, exportStats, hsearch (2 ^ 31) hlt, Option.map_some, Option.bind_some]
      exact hall
    · intro f hf
      have hne : f ≠ reportName n := by
        rintro rfl
        rw [hfree] at hf
        cases hf
      have hold : Function.update d (reportName n) (some content) f = d f :=
        Function.update_of_ne hne _ _
      rw [← hold]
      exact hkeep f (by rw [hold]; exact hf)
    · rw [newFiles_update hfree hkeep, Set.encard_insert_of_notMem (by simp), hnew]
      rfl

/-- As long as an `int` counts to unused names, an export ends with the first of them and
overwrites nothing, and so many exports add so many files. -/
theorem exports_never_overwrite (d : Directory C) (contents : List C)
    (hunused : (unusedReports d).Nonempty)
    (hroom : contents.length ≤ (unusedReports d).card) :
    ExportsSafely d ∧ AddsReports d contents :=
  ⟨exportsSafely_of_unused hunused, 2 ^ 31, exportAll_of_unused hroom⟩

theorem card_unusedReports_ge {d : Directory C} {files : Finset (List Char)}
    (hfiles : ∀ f, (d f).isSome → f ∈ files) :
    2 ^ 31 - files.card ≤ (unusedReports d).card := by
  have hinj : ∀ i j : ℕ, i < 2 ^ 31 → j < 2 ^ 31 → reportName i = reportName j → i = j := by
    intro i j _ _ hij
    exact Int.natCast_inj.mp (reportName_injective hij)
  apply card_unused_ge hinj
  intro i hi hused
  apply hfiles
  rw [unusedReports, Finset.mem_filter, Finset.mem_range, not_and] at hused
  simpa [Option.isSome_iff_ne_none] using hused hi

/-- The first report of a simulation. -/
def oneReport : Directory Unit := fun f => if f = reportName 0 then some () else none

theorem exports_never_overwrite_second :
    ExportsSafely oneReport ∧ AddsReports oneReport [(), ()] := by
  have hcard : 2 ^ 31 - ({reportName 0} : Finset (List Char)).card ≤
      (unusedReports oneReport).card :=
    card_unusedReports_ge (by simp [oneReport])
  rw [Finset.card_singleton] at hcard
  exact exports_never_overwrite oneReport [(), ()] (Finset.card_pos.mp (by omega))
    (le_trans (by decide) hcard)

/-- Every number of an `int` from 0 on has been used. -/
def allReports : Directory Unit := fun f =>
  if ∃ i < 2 ^ 31, f = reportName (i : ℕ) then some () else none

theorem allReports_finite : {f | (allReports f).isSome}.Finite := by
  have himage := (Finset.range (2 ^ 31)).finite_toSet.image fun i : ℕ => reportName i
  apply himage.subset
  intro f hf
  by_cases h : ∃ i < 2 ^ 31, f = reportName (i : ℕ)
  · obtain ⟨i, hi, rfl⟩ := h
    exact ⟨i, by simpa using hi, rfl⟩
  · have hnone : allReports f = none := if_neg h
    have hf : (allReports f).isSome := hf
    rw [hnone] at hf
    cases hf

/-- The search does not go on with the number after the last one. -/
theorem export_skips_name :
    ¬ ∀ d : Directory Unit, {f | (d f).isSome}.Finite → ExportsSafely d := by
  intro hsafe
  obtain ⟨n, fuel, hfree, -, hsearch⟩ := hsafe allReports allReports_finite
  have hlarge : 2 ^ 31 ≤ n := by
    by_contra hlt
    have hused : ∃ i < 2 ^ 31, reportName n = reportName (i : ℕ) := ⟨n, by omega, rfl⟩
    have hsome : allReports (reportName n) = some () := if_pos hused
    rw [hfree] at hsome
    cases hsome
  have hfound := (hsearch fuel le_rfl).1
  rw [searchName_eq, Option.map_eq_some_iff] at hfound
  obtain ⟨counter, hprobe, hname⟩ := hfound
  obtain ⟨m, rfl, -⟩ := probe_eq_some hprobe
  have hfits := nextCounter_iterate_fits m
  rw [reportName_injective hname, Fits] at hfits
  omega

end PosteItaliane
